import Octoglyph.Value

/-! # Bytes and text

The encoding of text in bytes. Bytes that encode no text are refused, or each longest beginning of
a character that does not go on as one is read as a replacement character.
-/

namespace Octoglyph

abbrev Bytes := List UInt8

namespace Utf8

def encode (text : Text) : Bytes := text.flatMap String.utf8EncodeChar

/-- Whether the byte goes on with a character. -/
def isContinuation (b : UInt8) : Bool := 0x80 ≤ b && b ≤ 0xBF

/-- The bits that a continuation byte carries. -/
def bits (b : UInt8) : Nat := b.toNat % 64

/-- The bytes that may follow the first byte of a character of three or four bytes, so that it is
neither too long an encoding, nor a surrogate's, nor beyond the last code. -/
def secondRange (first : UInt8) : UInt8 × UInt8 :=
  if first = 0xE0 then (0xA0, 0xBF)
  else if first = 0xED then (0x80, 0x9F)
  else if first = 0xF0 then (0x90, 0xBF)
  else if first = 0xF4 then (0x80, 0x8F)
  else (0x80, 0xBF)

/-- Whether the byte may follow the first one. -/
def isSecond (first b : UInt8) : Bool :=
  (secondRange first).1 ≤ b && b ≤ (secondRange first).2

/-- The character at the front, and how many of the bytes behind the first are read with it. -/
def front (first : UInt8) (rest : Bytes) : Option Char × Nat :=
  if first < 0x80 then (scalar? first.toNat, 0)
  else if 0xC2 ≤ first && first ≤ 0xDF then
    match rest with
    | b :: _ =>
      if isContinuation b then (scalar? ((first.toNat - 0xC0) * 64 + bits b), 1) else (none, 0)
    | [] => (none, 0)
  else if 0xE0 ≤ first && first ≤ 0xEF then
    match rest with
    | b :: rest =>
      if isSecond first b then
        match rest with
        | c :: _ =>
          if isContinuation c then
            (scalar? (((first.toNat - 0xE0) * 64 + bits b) * 64 + bits c), 2)
          else (none, 1)
        | [] => (none, 1)
      else (none, 0)
    | [] => (none, 0)
  else if 0xF0 ≤ first && first ≤ 0xF4 then
    match rest with
    | b :: rest =>
      if isSecond first b then
        match rest with
        | c :: rest =>
          if isContinuation c then
            match rest with
            | d :: _ =>
              if isContinuation d then
                (scalar? ((((first.toNat - 0xF0) * 64 + bits b) * 64 + bits c) * 64 + bits d), 3)
              else (none, 2)
            | [] => (none, 2)
          else (none, 1)
        | [] => (none, 1)
      else (none, 0)
    | [] => (none, 0)
  else (none, 0)

/-- Reads the bytes behind `done`, which is reversed. -/
def decodeOnto (done : Text) : Bytes → Option Text
  | [] => some done.reverse
  | b :: rest =>
    match front b rest with
    | (some c, more) => decodeOnto (c :: done) (rest.drop more)
    | (none, _) => none
termination_by bytes => bytes.length

/-- The text that the bytes encode. -/
def decode? (bytes : Bytes) : Option Text := decodeOnto [] bytes

/-- Reads the bytes behind `done`, which is reversed, with replacements. -/
def decodeLossyOnto (done : Text) : Bytes → Text
  | [] => done.reverse
  | b :: rest =>
    let (c?, more) := front b rest
    decodeLossyOnto (c?.getD '�' :: done) (rest.drop more)
termination_by bytes => bytes.length

/-- The text that the bytes encode, with a replacement for each fault. -/
def decodeLossy (bytes : Bytes) : Text := decodeLossyOnto [] bytes

end Utf8

end Octoglyph
