import Octoglyph.Numeral
import Octoglyph.Toml.Value
import Octoglyph.Value

/-! # Reading TOML

The grammar of TOML 1.0, each rule as a function that takes its part off the front of the text.
Arrays and inline tables nest at most 79 deep, and keys have at most 79 parts.
-/

namespace Octoglyph.Toml

/-- Takes something off the front of a text, or fails. -/
abbrev Reader := StateT Text Option

namespace Reader

/-- Takes the given characters. -/
def word (w : Text) : Reader Unit := fun t => (w.isPrefixOf? t).map fun rest => ((), rest)

def char (c : Char) : Reader Unit := word [c]

def peek? : Reader (Option Char) := fun t => some (t.head?, t)

/-- Takes the characters up to the first that does not satisfy `p`. -/
def takeAll (p : Char → Bool) : Reader Text := fun t => some (t.takeWhile p, t.dropWhile p)

/-- Takes a character that satisfies `p`. -/
def one (p : Char → Bool) : Reader Char
  | [] => none
  | c :: rest => if p c then some (c, rest) else none

/-- Applies the reader as long as it succeeds, at most `fuel` times, behind the results `done`,
which are reversed. -/
def manyOnto (r : Reader α) : (fuel : Nat) → (done : List α) → Reader (List α)
  | 0, done, t => some (done.reverse, t)
  | fuel + 1, done, t =>
    match r t with
    | none => some (done.reverse, t)
    | some (a, rest) => manyOnto r fuel (a :: done) rest

/-- Applies the reader as long as it succeeds, at most `fuel` times. -/
def many (r : Reader α) (fuel : Nat) : Reader (List α) := manyOnto r fuel []

/-- The number of characters left, which bounds every repetition. -/
def remaining : Reader Nat := fun t => some (t.length, t)

end Reader

open Reader

def isBlank (c : Char) : Bool := c == ' ' || c == '\t'

def blanks : Reader Unit := discard (takeAll isBlank)

def newline : Reader Unit := char '\n' <|> word ['\r', '\n']

/-- A character that may stand in a comment. -/
def isCommentChar (c : Char) : Bool := c == '\t' || (' ' ≤ c && c.toNat ≤ 0x7F) || 0x80 ≤ c.toNat

def comment : Reader Unit := do
  char '#'
  discard (takeAll isCommentChar)

def endOfText : Reader Unit
  | [] => some ((), [])
  | _ => none

/-- The end of a line, with the blanks and the comment before it. -/
def lineEnd : Reader Unit := do
  blanks
  discard (optional comment)
  newline <|> endOfText

/-- Blanks, comments and line breaks. -/
def filler : Reader Unit := do
  discard (many (discard (one isBlank) <|> newline <|> comment) (← remaining))

/-! ## Strings -/

/-- A character that stands for itself in a string, its mark and the backslash apart. -/
def isPlain (c : Char) : Bool := c == '\t' || (' ' ≤ c && c ≤ '~') || 0x80 ≤ c.toNat

def isBasicChar (c : Char) : Bool := isPlain c && c != '"' && c != '\\'

def isLiteralChar (c : Char) : Bool := isPlain c && c != '\''

/-- A character given by its code in `n` hexadecimal digits. -/
def codeEscape (n : Nat) : Reader Char := fun t => do
  let digits := t.take n
  if digits.length < n then none
  else
    let c ← scalar? (← Numeral.read? 16 digits)
    return (c, t.drop n)

/-- What stands behind a backslash. -/
def escapeChar : Reader Char := do
  match ← one fun _ => true with
  | 'b' => return '\x08'
  | 'f' => return '\x0c'
  | 'n' => return '\n'
  | 'r' => return '\r'
  | 't' => return '\t'
  | '"' => return '"'
  | '\\' => return '\\'
  | 'u' => codeEscape 4
  | 'U' => codeEscape 8
  | _ => failure

def escaped : Reader Char := do
  char '\\'
  escapeChar

def basicString : Reader Text := do
  char '"'
  let body ← many (one isBasicChar <|> escaped) (← remaining)
  char '"'
  return body

def literalString : Reader Text := do
  char '\''
  let body ← takeAll isLiteralChar
  char '\''
  return body

/-- A backslash at the end of a line, with all the blank space behind it. -/
def continuation : Reader Text := do
  char '\\'
  blanks
  newline
  discard (many (discard (one isBlank) <|> newline) (← remaining))
  return []

/-- One or two marks that do not end a string. -/
def innerMarks (mark : Char) : Reader Text := do
  let marks ← takeAll (· == mark)
  if 0 < marks.length && marks.length < 3 then return marks else failure

/-- The end of a string of several lines: up to two marks belong to it. -/
def closeMarks (mark : Char) : Reader Text := fun t =>
  let marks := (t.takeWhile (· == mark)).length
  if marks < 3 then none
  else
    let taken := min marks 5
    some (List.replicate (taken - 3) mark, t.drop taken)

def lineBreak : Reader Text := do
  newline
  return ['\n']

/-- A string of several lines, made of the given parts. -/
def longString (mark : Char) (part : Reader Text) : Reader Text := do
  word [mark, mark, mark]
  discard (optional newline)
  let body ← many (part <|> lineBreak <|> innerMarks mark) (← remaining)
  let last ← closeMarks mark
  return body.flatten ++ last

def longBasicString : Reader Text :=
  longString '"' ((one isBasicChar >>= fun c => pure [c]) <|> continuation <|>
    (escaped >>= fun c => pure [c]))

def longLiteralString : Reader Text :=
  longString '\'' (one isLiteralChar >>= fun c => pure [c])

def stringText : Reader Text :=
  longBasicString <|> basicString <|> longLiteralString <|> literalString

/-! ## Numbers and dates -/

/-- Digits that satisfy `p`, with single underscores between them. -/
def digitRun (p : Char → Bool) : Reader Text := do
  let first ← one p
  let rest ← many ((do char '_'; one p) <|> one p) (← remaining)
  return first :: rest

def isBinaryDigit (c : Char) : Bool := c == '0' || c == '1'

def isOctalDigit (c : Char) : Bool := '0' ≤ c && c ≤ '7'

def isHexDigit (c : Char) : Bool := (Numeral.digit? 16 c).isSome

/-- Integers are held in 64 bits with a sign. -/
def integerBound : Nat := Nat.pow 2 63

def sign : Reader Text := do
  match ← optional (one fun c => c == '+' || c == '-') with
  | some c => return [c]
  | none => return []

/-- A decimal integer: no zero comes before another digit. -/
def decimalDigits : Reader Text := do
  let s ← sign
  match ← peek? with
  | some '0' =>
    char '0'
    return s ++ ['0']
  | _ => return s ++ (← digitRun Char.isDigit)

def radixed (mark : Char) (base : Nat) (p : Char → Bool) : Reader Int := do
  word ['0', mark]
  let digits ← digitRun p
  match Numeral.readUnsigned? base integerBound digits with
  | some n => return n
  | none => failure

def integer : Reader Int :=
  radixed 'x' 16 isHexDigit <|> radixed 'o' 8 isOctalDigit <|> radixed 'b' 2 isBinaryDigit <|> do
    match Numeral.readSigned? 10 integerBound (← decimalDigits) with
    | some n => return n
    | none => failure

/-- Whether `digits * 10 ^ exponent` rounds to a finite number in 64 bits. -/
def isFinite (digits : Nat) (exponent : Int) : Bool :=
  let size : Int := (Numeral.decimal digits).length + exponent
  if digits = 0 || size < 300 then true
  else if 320 < size then false
  else
    let limit := Nat.pow 2 1024 - Nat.pow 2 970
    if exponent < 0 then digits < limit * Nat.pow 10 exponent.natAbs
    else digits * Nat.pow 10 exponent.natAbs < limit

/-- A number with a fraction or an exponent. It must not round to positive infinity. -/
def decimalFloat : Reader Unit := do
  let whole ← decimalDigits
  let fraction ← optional do
    char '.'
    digitRun Char.isDigit
  let exponent ← optional do
    discard (one fun c => c == 'e' || c == 'E')
    let s ← sign
    return s ++ (← digitRun Char.isDigit)
  if fraction.isNone && exponent.isNone then failure
  let negative := whole.head? == some '-'
  let fraction := fraction.getD []
  let digits := (Numeral.read? 10 (whole.filter Char.isDigit ++ fraction)).getD 0
  let exponent := exponent.getD []
  let size := (Numeral.read? 10 (exponent.filter Char.isDigit)).getD 0
  let scale : Int := if exponent.head? == some '-' then -size else size
  if negative || isFinite digits (scale - fraction.length) then return () else failure

def specialFloat : Reader Unit := do
  discard sign
  word ['i', 'n', 'f'] <|> word ['n', 'a', 'n']

/-- A number of exactly `n` digits within the bounds. -/
def fixedNumber (n low high : Nat) : Reader Nat := fun t => do
  let digits := t.take n
  if digits.length < n then none
  else
    let value ← Numeral.read? 10 digits
    if low ≤ value && value ≤ high then some (value, t.drop n) else none

def isLeapYear (year : Nat) : Bool := year % 4 == 0 && (year % 100 != 0 || year % 400 == 0)

def daysIn (year month : Nat) : Nat :=
  if month == 2 then (if isLeapYear year then 29 else 28)
  else if month == 4 || month == 6 || month == 9 || month == 11 then 30
  else 31

def date : Reader Unit := do
  let year ← fixedNumber 4 0 9999
  char '-'
  let month ← fixedNumber 2 1 12
  char '-'
  discard (fixedNumber 2 1 (daysIn year month))

def time : Reader Unit := do
  discard (fixedNumber 2 0 23)
  char ':'
  discard (fixedNumber 2 0 59)
  char ':'
  discard (fixedNumber 2 0 60)
  discard (optional do
    char '.'
    discard (one Char.isDigit)
    discard (takeAll Char.isDigit))

def offset : Reader Unit :=
  (discard (one fun c => c == 'Z' || c == 'z')) <|> do
    discard (one fun c => c == '+' || c == '-')
    discard (fixedNumber 2 0 23)
    char ':'
    discard (fixedNumber 2 0 59)

def moment : Reader Unit :=
  (do
    date
    discard (optional do
      discard (one fun c => c == 'T' || c == 't' || c == ' ')
      time
      discard (optional offset))) <|> time

/-! ## Keys, values and documents -/

/-- Arrays, inline tables and keys nest less deep than this. -/
def depthLimit : Nat := 80

def isBareChar (c : Char) : Bool := c.isAlphanum || c == '_' || c == '-'

def simpleKey : Reader Text :=
  basicString <|> literalString <|> do
    let first ← one isBareChar
    return first :: (← takeAll isBareChar)

/-- A key with blanks around it. -/
def spacedKey : Reader Text := do
  blanks
  let key ← simpleKey
  blanks
  return key

/-- The parts of a dotted key. -/
def keyPath : Reader (List Text) := do
  let first ← spacedKey
  let rest ← many (do char '.'; spacedKey) (← remaining)
  if rest.length + 1 < depthLimit then return first :: rest else failure

/-- The value at the front, with arrays and inline tables at most `depth` deep. -/
def value : (depth : Nat) → Reader Value
  | 0 => scalarValue
  | depth + 1 => arrayOf (value depth) <|> inlineTable (value depth) <|> scalarValue
where
  /-- A value without parts. -/
  scalarValue : Reader Value :=
    (stringText >>= fun s => pure (.string s)) <|>
    (moment >>= fun _ => pure .moment) <|>
    ((decimalFloat <|> specialFloat) >>= fun _ => pure .float) <|>
    (integer >>= fun n => pure (.integer n)) <|>
    (word ['t', 'r', 'u', 'e'] >>= fun _ => pure (.boolean true)) <|>
    (word ['f', 'a', 'l', 's', 'e'] >>= fun _ => pure (.boolean false))
  /-- Values in brackets; a comma may follow the last. -/
  arrayOf (item : Reader Value) : Reader Value := do
    char '['
    let spaced : Reader Value := do
      filler
      let v ← item
      filler
      return v
    let items ← match ← optional spaced with
      | none => pure []
      | some first => do
        let rest ← many (do char ','; spaced) (← remaining)
        discard (optional (char ','))
        pure (first :: rest)
    filler
    char ']'
    return .array items
  /-- Keys and values in braces, on one line. -/
  inlineTable (item : Reader Value) : Reader Value := do
    char '\x7b'
    let pair : Reader (List Text × Value) := do
      let path ← keyPath
      char '='
      blanks
      let v ← item
      blanks
      return (path, v)
    let pairs ← match ← optional pair with
      | none => pure []
      | some first => do
        let rest ← many (do char ','; pair) (← remaining)
        pure (first :: rest)
    blanks
    char '\x7d'
    match pairs.foldlM (fun entries (path, v) => Entries.assign path v .inline entries) [] with
    | some entries => return .table .inline entries
    | none => failure

/-- A line of a document that says something. -/
inductive Line where
  | assign (path : List Text) (v : Value)
  | openTable (path : List Text)
  | openItem (path : List Text)
  | nothing

def line : Reader Line :=
  (do lineEnd; return .nothing) <|>
  (do
    word ['[', '[']
    let path ← keyPath
    word [']', ']']
    lineEnd
    return .openItem path) <|>
  (do
    char '['
    let path ← keyPath
    char ']'
    lineEnd
    return .openTable path) <|>
  (do
    let path ← keyPath
    char '='
    blanks
    let v ← value (depthLimit - 1)
    lineEnd
    return .assign path v)

/-- Adds what the lines say, the last header being `header`. -/
def addLines : (header : List Text) → Entries → List Line → Option Entries
  | _, entries, [] => some entries
  | header, entries, .nothing :: rest => addLines header entries rest
  | header, entries, .assign path v :: rest => do
    addLines header (← entries.assignUnder header path v) rest
  | _, entries, .openTable path :: rest => do
    addLines path (← entries.openTable path) rest
  | _, entries, .openItem path :: rest => do
    addLines path (← entries.openItem path) rest

/-- Takes lines, at most `fuel` of them, up to the end of the text. -/
def lines : (fuel : Nat) → Text → Option (List Line)
  | _, [] => some []
  | 0, _ => none
  | fuel + 1, text => do
    let (l, rest) ← (do blanks; line : Reader Line) text
    return l :: (← lines fuel rest)

/-- The table that a document describes. -/
def read? (text : Text) : Option Entries := do
  let text := (['\ufeff'].isPrefixOf? text).getD text
  addLines [] [] (← lines text.length text)

end Octoglyph.Toml
