import Octoglyph.Text

/-! # The eight symbols

An encoded program is spelled with eight symbols. The letters spell `exec`, the brackets call it,
the quote opens literals, `=` compares, and `%` substitutes.
-/

namespace Octoglyph.Alphabet

/-- The symbols, in canonical order. -/
def symbols : List Char := ['e', 'x', 'c', '%', '(', ')', '\'', '=']

/-- The letter for a set bit in the name of a number. -/
def oneLetter : Char := 'e'

/-- The letter for a clear bit in the name of a number. -/
def zeroLetter : Char := 'c'

def isSymbol (c : Char) : Bool := symbols.contains c

/-- The first character that is not a symbol. -/
def firstForeign? (text : Text) : Option Located :=
  text.locate? fun c => !isSymbol c

/-- Whether the text is spelled with symbols only. -/
def isSpelled (text : Text) : Bool := (firstForeign? text).isNone

/-- The symbols that occur in the text, in canonical order. -/
def used (text : Text) : List Char := symbols.filter text.contains

end Octoglyph.Alphabet
