import Octoglyph.Strategy

/-! # Settings of the encoder -/

namespace Octoglyph

structure Config where
  /-- How the program is spelled. -/
  strategy : Strategy := default
  /-- Characters above this code are refused. -/
  maxCodePoint : Nat := 0x10FFFF
  /-- Templates with more arguments are refused. -/
  maxTemplateSlots : Nat := 24
  /-- Whether the result is evaluated and compared with the program. -/
  verify : Bool := false
deriving DecidableEq, Repr

end Octoglyph
