import Octoglyph.Growth.Sample

/-! # Sources of random codes

A source is a sequence of 32-bit words: either given words, followed by zeros, or the key stream
of a seed. A word is turned into a code by multiplication; words that would favour some codes are
skipped.
-/

namespace Octoglyph.Growth

/-! ## The key stream of a seed -/

/-- Sixteen words in four rows of four. -/
abbrev Block := Vector UInt32 16

def rotateLeft (w : UInt32) (n : UInt32) : UInt32 := (w <<< n) ||| (w >>> (32 - n))

def rotateRight (w : UInt32) (n : UInt32) : UInt32 := (w >>> n) ||| (w <<< (32 - n))

/-- Mixes four words of the block. -/
def quarterRound (s : Block) (a b c d : Fin 16) : Block :=
  let s := s.set a (s[a] + s[b])
  let s := s.set d (rotateLeft (s[d] ^^^ s[a]) 16)
  let s := s.set c (s[c] + s[d])
  let s := s.set b (rotateLeft (s[b] ^^^ s[c]) 12)
  let s := s.set a (s[a] + s[b])
  let s := s.set d (rotateLeft (s[d] ^^^ s[a]) 8)
  let s := s.set c (s[c] + s[d])
  s.set b (rotateLeft (s[b] ^^^ s[c]) 7)

/-- Mixes the columns, then the diagonals. -/
def doubleRound (s : Block) : Block :=
  let s := quarterRound s 0 4 8 12
  let s := quarterRound s 1 5 9 13
  let s := quarterRound s 2 6 10 14
  let s := quarterRound s 3 7 11 15
  let s := quarterRound s 0 5 10 15
  let s := quarterRound s 1 6 11 12
  let s := quarterRound s 2 7 8 13
  quarterRound s 3 4 9 14

/-- A block is mixed six times in both directions. -/
def doubleRounds : Nat := 6

/-- The block that is mixed: four constants, the key, the counter and two zeros. -/
def startBlock (key : Vector UInt32 8) (counter : UInt64) : Block :=
  (#v[0x61707865, 0x3320646e, 0x79622d32, 0x6b206574] : Vector UInt32 4) ++ key ++
    #v[counter.toUInt32, (counter >>> 32).toUInt32, 0, 0]

/-- The words of a block of the key stream. -/
def streamBlock (key : Vector UInt32 8) (counter : UInt64) : List UInt32 :=
  let start := startBlock key counter
  let mixed := doubleRounds.repeat doubleRound start
  (mixed.zipWith (· + ·) start).toList

/-- The next state of the generator that stretches a seed, and its output. -/
def stretch (s : UInt64) : UInt32 × UInt64 :=
  let s := s * 6364136223846793005 + 11634580027462260723
  (rotateRight (((s >>> 18) ^^^ s) >>> 27).toUInt32 (s >>> 59).toUInt32, s)

/-- The key of a seed. -/
def keyOf (seed : UInt64) : Vector UInt32 8 :=
  let step := fun (key, s) (i : Fin 8) =>
    let (w, s) := stretch s
    (key.set i w, s)
  ((List.finRange 8).foldl step (Vector.replicate 8 0, seed)).1

/-! ## Drawing -/

inductive Source where
  /-- The words to come; behind them all words are zero. -/
  | words (rest : List UInt32)
  /-- The key stream from block `counter` on, behind the words of an earlier block. -/
  | keyed (key : Vector UInt32 8) (counter : UInt64) (rest : List UInt32)

namespace Source

def ofSeed (seed : UInt64) : Source := .keyed (keyOf seed) 0 []

/-- The next word. -/
def next : Source → UInt32 × Source
  | .words [] => (0, .words [])
  | .words (w :: rest) => (w, .words rest)
  | .keyed key counter (w :: rest) => (w, .keyed key counter rest)
  | .keyed key counter [] =>
    match streamBlock key counter with
    | [] => (0, .keyed key counter [])
    | w :: rest => (w, .keyed key (counter + 1) rest)

/-- The code of a word, unless the word is to be skipped: as many words give each code. -/
def code? (w : UInt32) : Option Code :=
  let product := w.toNat * codeBound
  if h : product / Nat.pow 2 32 < codeBound ∧ product % Nat.pow 2 32 ≤ 0xFDFFFFFF then
    some ⟨product / Nat.pow 2 32, h.1⟩
  else none

/-- How many words are tried for a code. Given words are all tried; in a key stream one word in
128 is skipped, so that this many in a row are never. -/
def patience : Source → Nat
  | .words rest => rest.length
  | .keyed .. => Nat.pow 2 32

/-- Draws a code, skipping at most `fuel` words. -/
def drawWithin : (fuel : Nat) → Source → Code × Source
  | fuel, source =>
    let (w, source) := source.next
    match code? w, fuel with
    | some code, _ => (code, source)
    | none, 0 => (⟨0, by decide⟩, source)
    | none, fuel + 1 => drawWithin fuel source

/-- Draws a code. -/
def draw : StateM Source Code := fun source => drawWithin source.patience source

end Source

end Octoglyph.Growth
