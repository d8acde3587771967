import Octoglyph.Numeral
import Octoglyph.Text.Glyph

/-! # Quoted text

Messages quote characters and texts so that every character can be told from its neighbours. A
character is quoted with `'` and a text with `"`; either form escapes its own mark only.
-/

namespace Octoglyph.Text

/-- The character as it stands between two marks. -/
def escape (mark c : Char) : Text :=
  if c = '\x00' then ['\\', '0']
  else if c = '\t' then ['\\', 't']
  else if c = '\r' then ['\\', 'r']
  else if c = '\n' then ['\\', 'n']
  else if c = '\\' || c = mark then ['\\', c]
  else if shows c then [c]
  else ['\\', 'u', '\x7b'] ++ Numeral.hex c.toNat ++ ['\x7d']

/-- The text between two marks. -/
def between (mark : Char) (text : Text) : Text :=
  mark :: (text.flatMap (escape mark) ++ [mark])

def quoted (text : Text) : String := String.ofList (between '"' text)

def quotedChar (c : Char) : String := String.ofList (between '\'' [c])

end Octoglyph.Text
