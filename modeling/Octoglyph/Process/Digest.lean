import Octoglyph.Text.Utf8

/-! # SHA-256 digests -/

namespace Octoglyph.Digest

/-- The state: eight words. -/
abbrev State := Vector UInt32 8

def initial : State :=
  #v[0x6a09e667, 0xbb67ae85, 0x3c6ef372, 0xa54ff53a, 0x510e527f, 0x9b05688c, 0x1f83d9ab, 0x5be0cd19]

/-- The constants of the 64 rounds. -/
def roundConstants : List UInt32 :=
  [0x428a2f98, 0x71374491, 0xb5c0fbcf, 0xe9b5dba5, 0x3956c25b, 0x59f111f1, 0x923f82a4, 0xab1c5ed5,
   0xd807aa98, 0x12835b01, 0x243185be, 0x550c7dc3, 0x72be5d74, 0x80deb1fe, 0x9bdc06a7, 0xc19bf174,
   0xe49b69c1, 0xefbe4786, 0x0fc19dc6, 0x240ca1cc, 0x2de92c6f, 0x4a7484aa, 0x5cb0a9dc, 0x76f988da,
   0x983e5152, 0xa831c66d, 0xb00327c8, 0xbf597fc7, 0xc6e00bf3, 0xd5a79147, 0x06ca6351, 0x14292967,
   0x27b70a85, 0x2e1b2138, 0x4d2c6dfc, 0x53380d13, 0x650a7354, 0x766a0abb, 0x81c2c92e, 0x92722c85,
   0xa2bfe8a1, 0xa81a664b, 0xc24b8b70, 0xc76c51a3, 0xd192e819, 0xd6990624, 0xf40e3585, 0x106aa070,
   0x19a4c116, 0x1e376c08, 0x2748774c, 0x34b0bcb5, 0x391c0cb3, 0x4ed8aa4a, 0x5b9cca4f, 0x682e6ff3,
   0x748f82ee, 0x78a5636f, 0x84c87814, 0x8cc70208, 0x90befffa, 0xa4506ceb, 0xbef9a3f7, 0xc67178f2]

def rotate (w n : UInt32) : UInt32 := (w >>> n) ||| (w <<< (32 - n))

/-- The next word of the schedule, from the sixteen before it, the latest first. -/
def scheduleWord (recent : List UInt32) : UInt32 :=
  let word (i : Nat) : UInt32 := recent.getD i 0
  let w15 := word 14
  let w2 := word 1
  let s0 := rotate w15 7 ^^^ rotate w15 18 ^^^ (w15 >>> 3)
  let s1 := rotate w2 17 ^^^ rotate w2 19 ^^^ (w2 >>> 10)
  word 15 + s0 + word 6 + s1

/-- The 64 words of the schedule of a block of sixteen. -/
def schedule (block : List UInt32) : List UInt32 :=
  ((48).repeat (fun recent => scheduleWord recent :: recent) block.reverse).reverse

def round (s : State) (w k : UInt32) : State :=
  let e := s[4]
  let a := s[0]
  let s1 := rotate e 6 ^^^ rotate e 11 ^^^ rotate e 25
  let ch := (e &&& s[5]) ^^^ (~~~e &&& s[6])
  let t1 := s[7] + s1 + ch + k + w
  let s0 := rotate a 2 ^^^ rotate a 13 ^^^ rotate a 22
  let maj := (a &&& s[1]) ^^^ (a &&& s[2]) ^^^ (s[1] &&& s[2])
  #v[t1 + s0 + maj, a, s[1], s[2], s[3] + t1, e, s[5], s[6]]

/-- Takes one block into the state. -/
def compress (s : State) (block : List UInt32) : State :=
  let mixed := ((schedule block).zip roundConstants).foldl (fun s (w, k) => round s w k) s
  s.zipWith (· + ·) mixed

/-- The bytes with a one bit, zeros, and their number of bits in eight bytes behind them, which
makes whole blocks. -/
def pad (bytes : Bytes) : Bytes :=
  let n := bytes.length
  let zeros := (119 - n % 64) % 64
  let size := (8 * n).toUInt64
  bytes ++ (0x80 : UInt8) :: List.replicate zeros 0 ++
    ([56, 48, 40, 32, 24, 16, 8, 0] : List UInt64).map fun shift => (size >>> shift).toUInt8

/-- Words of four bytes each, behind `done`, which is reversed. -/
def wordsOnto (done : List UInt32) : Bytes → List UInt32
  | a :: b :: c :: d :: rest =>
    let word := a.toUInt32 <<< 24 ||| b.toUInt32 <<< 16 ||| c.toUInt32 <<< 8 ||| d.toUInt32
    wordsOnto (word :: done) rest
  | _ => done.reverse

/-- Takes the blocks of sixteen words into the state, at most `fuel` of them. -/
def compressAll : (fuel : Nat) → State → List UInt32 → State
  | 0, s, _ => s
  | _ + 1, s, [] => s
  | fuel + 1, s, words => compressAll fuel (compress s (words.take 16)) (words.drop 16)

/-- The digest of the bytes, in hexadecimal. -/
def sha256 (bytes : Bytes) : Text :=
  let words := wordsOnto [] (pad bytes)
  (compressAll words.length initial words).toList.flatMap fun w =>
    Numeral.padLeft 8 '0' (Numeral.hex w.toNat)

end Octoglyph.Digest
