import Octoglyph.Text.Utf8

/-! # A small command shell

Scripts are lines of simple commands, joined by `;`, `&&` and `||`. Words may be quoted and may
refer to variables, output may be sent to the other stream, and the commands are those that write
text or end the script. A line is read as a whole before any of it is run.
-/

namespace Octoglyph.Shell

/-! ## Words -/

/-- A part of a word. What is quoted is not split. -/
inductive Piece where
  | plain (text : Text) (quoted : Bool)
  | reference (name : Text) (quoted : Bool)
deriving DecidableEq, Repr

abbrev Word := List Piece

/-- Where output goes. -/
inductive Stream where
  | output
  | errors
  | nowhere
deriving DecidableEq, Repr

inductive Token where
  | word (w : Word)
  /-- `stream>&copied`, or `stream>` and a file, which is not kept. -/
  | redirect (stream : Nat) (copied : Option Nat)
  | semicolon
  | andThen
  | orElse
  | newline
  /-- A mark that no simple command has. -/
  | mark (c : Char)
  /-- A quote that is not closed. -/
  | unterminated
deriving DecidableEq, Repr

def isNameStart (c : Char) : Bool := c.isAlpha || c == '_'

def isNameChar (c : Char) : Bool := c.isAlphanum || c == '_'

def isMark (c : Char) : Bool :=
  c == ';' || c == '&' || c == '|' || c == '<' || c == '>' || c == '(' || c == ')'

def endsWord (c : Char) : Bool := c == ' ' || c == '\t' || c == '\n' || isMark c

/-- The variable, or the lone sign, that follows a `$`. -/
def dollar (quoted : Bool) (text : Text) : Piece × Text :=
  match text with
  | '$' :: rest => (.reference ['$'] quoted, rest)
  | '?' :: rest => (.reference ['?'] quoted, rest)
  | '\x7b' :: rest =>
    (.reference (rest.takeWhile (· != '\x7d')) quoted, (rest.dropWhile (· != '\x7d')).drop 1)
  | c :: rest =>
    if isNameStart c then
      (.reference (c :: rest.takeWhile isNameChar) quoted, rest.dropWhile isNameChar)
    else if c.isDigit then (.reference [c] quoted, rest)
    else (.plain ['$'] quoted, text)
  | [] => (.plain ['$'] quoted, [])

/-- The pieces up to the closing double quote, behind `done`, which is reversed. -/
def doubleQuoted : (fuel : Nat) → (done : Word) → Text → Option (Word × Text)
  | 0, _, _ | _ + 1, _, [] => none
  | _ + 1, done, '"' :: rest => some (done, rest)
  | fuel + 1, done, '\\' :: c :: rest =>
    if c == '\n' then doubleQuoted fuel done rest
    else if c == '$' || c == '"' || c == '\\' then doubleQuoted fuel (.plain [c] true :: done) rest
    else doubleQuoted fuel (.plain ['\\', c] true :: done) rest
  | fuel + 1, done, '$' :: rest =>
    let (piece, rest) := dollar true rest
    doubleQuoted fuel (piece :: done) rest
  | fuel + 1, done, c :: rest => doubleQuoted fuel (.plain [c] true :: done) rest

/-- The word at the front, behind the pieces `done`, which are reversed. -/
def word : (fuel : Nat) → (done : Word) → Text → Option (Word × Text)
  | 0, done, text => some (done.reverse, text)
  | _ + 1, done, [] => some (done.reverse, [])
  | fuel + 1, done, '\'' :: rest =>
    match rest.dropWhile (· != '\'') with
    | [] => none
    | _ :: after => word fuel (.plain (rest.takeWhile (· != '\'')) true :: done) after
  | fuel + 1, done, '"' :: rest =>
    match doubleQuoted fuel (.plain [] true :: done) rest with
    | none => none
    | some (done, rest) => word fuel done rest
  | fuel + 1, done, '\\' :: c :: rest =>
    if c == '\n' then word fuel done rest else word fuel (.plain [c] true :: done) rest
  | fuel + 1, done, '$' :: rest =>
    let (piece, rest) := dollar false rest
    word fuel (piece :: done) rest
  | fuel + 1, done, c :: rest =>
    if endsWord c then some (done.reverse, c :: rest)
    else word fuel (.plain [c] false :: done) rest

/-- What stands behind the `>` of a redirection. -/
def redirection (fuel : Nat) (stream : Nat) (text : Text) : Option (Token × Text) :=
  match text with
  | '&' :: c :: rest =>
    if c.isDigit then some (.redirect stream (some (c.toNat - '0'.toNat)), rest) else none
  | text => do
    let text := (['>'].isPrefixOf? text).getD text
    let (_, rest) ← word fuel [] (text.dropWhile (· == ' '))
    return (.redirect stream none, rest)

/-- The tokens of a script, behind `done`, which is reversed. -/
def tokens : (fuel : Nat) → (done : List Token) → Text → List Token
  | 0, done, _ | _ + 1, done, [] => done.reverse
  | fuel + 1, done, c :: rest =>
    if c == ' ' || c == '\t' then tokens fuel done rest
    else if c == '\n' then tokens fuel (.newline :: done) rest
    else if c == '#' then tokens fuel done (rest.dropWhile (· != '\n'))
    else if c == ';' then tokens fuel (.semicolon :: done) rest
    else if ['&', '&'].isPrefixOf (c :: rest) then tokens fuel (.andThen :: done) (rest.drop 1)
    else if ['|', '|'].isPrefixOf (c :: rest) then tokens fuel (.orElse :: done) (rest.drop 1)
    else
      let (stream, text) :=
        if c.isDigit then (c.toNat - '0'.toNat, rest) else (1, c :: rest)
      match text with
      | '>' :: after =>
        match redirection fuel stream after with
        | some (token, rest) => tokens fuel (token :: done) rest
        | none => (Token.mark '>' :: done).reverse
      | _ =>
        if isMark c then tokens fuel (.mark c :: done) rest
        else
          match word (fuel + 1) [] (c :: rest) with
          | none => (Token.unterminated :: done).reverse
          | some (w, rest) => tokens fuel (.word w :: done) rest

/-! ## Commands -/

/-- How a command depends on the one before it. -/
inductive Joint where
  | always
  | onSuccess
  | onFailure
deriving DecidableEq, Repr

structure Command where
  joint : Joint := .always
  words : List Word := []
  redirects : List (Nat × Option Nat) := []
deriving DecidableEq, Repr

/-- Why a line cannot be run. -/
inductive LineFault where
  | unterminatedQuote
  | unexpected (what expecting : String)
deriving DecidableEq, Repr

def LineFault.message : LineFault → String
  | .unterminatedQuote => "Syntax error: Unterminated quoted string"
  | .unexpected what expecting =>
    "Syntax error: " ++ what ++ " unexpected" ++
      if expecting.isEmpty then "" else " (expecting " ++ expecting ++ ")"

def Token.label : Token → String
  | .word _ => "word"
  | .redirect .. => "redirection"
  | .semicolon => "\";\""
  | .andThen => "\"&&\""
  | .orElse => "\"||\""
  | .newline => "newline"
  | .mark c => "\"" ++ String.singleton c ++ "\""
  | .unterminated => "end of file"

/-- The commands of a line, behind `done`, which is reversed, and the command being read. -/
def commands (done : List Command) (current : Command) :
    List Token → Except LineFault (List Command)
  | [] => .ok (current :: done).reverse
  | .word w :: rest => commands done { current with words := current.words ++ [w] } rest
  | .redirect stream copied :: rest =>
    commands done { current with redirects := current.redirects ++ [(stream, copied)] } rest
  | .semicolon :: rest =>
    if current.words.isEmpty && current.redirects.isEmpty then .error (.unexpected "\";\"" "")
    else commands (current :: done) {} rest
  | .andThen :: rest =>
    if current.words.isEmpty && current.redirects.isEmpty then .error (.unexpected "\"&&\"" "")
    else commands (current :: done) { joint := .onSuccess } rest
  | .orElse :: rest =>
    if current.words.isEmpty && current.redirects.isEmpty then .error (.unexpected "\"||\"" "")
    else commands (current :: done) { joint := .onFailure } rest
  | .newline :: rest => commands done current rest
  | .unterminated :: _ => .error .unterminatedQuote
  | .mark '(' :: rest =>
    match current.words, rest with
    | [_], token :: _ => .error (.unexpected token.label "\")\"")
    | _, _ => .error (.unexpected "\"(\"" "")
  | .mark c :: _ => .error (.unexpected (Token.mark c).label "")

/-! ## Running -/

/-- What a script has done so far. The output stands latest first. -/
structure State where
  bound : List (Text × Text) := []
  status : Nat := 0
  output : List Bytes := []
  errors : List Bytes := []
  /-- Whether the script is over. -/
  ended : Bool := false

/-- The script's own process number. -/
def ownNumber : Text := ['1']

def State.lookup (s : State) (name : Text) : Text :=
  if name = ['$'] then ownNumber
  else if name = ['?'] then Numeral.decimal s.status
  else (s.bound.lookup name).getD []

def State.write (s : State) (stream : Stream) (bytes : Bytes) : State :=
  match stream with
  | .output => { s with output := bytes :: s.output }
  | .errors => { s with errors := bytes :: s.errors }
  | .nowhere => s

/-- The fields of a word. Only what a variable stands for outside quotes is split. -/
def fields (s : State) (w : Word) : List Text :=
  let step := fun (done, current) (piece : Piece) =>
    match piece with
    | .plain text _ => (done, some ((current.getD []) ++ text))
    | .reference name true => (done, some ((current.getD []) ++ s.lookup name))
    | .reference name false =>
      (s.lookup name).foldl (fun (done, current) c =>
        if c == ' ' || c == '\t' || c == '\n' then
          (match current with
            | some text => (done ++ [text], none)
            | none => (done, none))
        else (done, some ((current.getD []) ++ [c]))) (done, current)
  let (done, current) := w.foldl step (([] : List Text), (none : Option Text))
  done ++ current.toList

/-- The text of a word without splitting. -/
def plainText (s : State) (w : Word) : Text :=
  w.flatMap fun
    | .plain text _ => text
    | .reference name _ => s.lookup name

/-- The name and the value of a word that is an assignment. -/
def assignment? (w : Word) : Option (Text × Word) :=
  let isPlain := fun
    | .plain [c] false => isNameChar c
    | _ => false
  let name := (w.takeWhile isPlain).flatMap fun
    | .plain text _ => text
    | .reference .. => []
  match name, w.dropWhile isPlain with
  | c :: _, .plain ['='] false :: value => if isNameStart c then some (name, value) else none
  | _, _ => none

/-- The digits of an octal code at the front, at most `n`, and its byte. -/
def octal (n : Nat) (text : Text) : UInt8 × Text :=
  let digits := (text.take n).takeWhile fun c => '0' ≤ c && c ≤ '7'
  (((Numeral.read? 8 digits).getD 0).toUInt8, text.drop digits.length)

/-- What a backslash and the text behind it stand for. -/
def escape : Text → Bytes × Text
  | 'a' :: rest => ([7], rest)
  | 'b' :: rest => ([8], rest)
  | 'f' :: rest => ([12], rest)
  | 'n' :: rest => ([10], rest)
  | 'r' :: rest => ([13], rest)
  | 't' :: rest => ([9], rest)
  | 'v' :: rest => ([11], rest)
  | '\\' :: rest => ([92], rest)
  | text =>
    if text.head?.any fun c => '0' ≤ c && c ≤ '7' then
      let (b, rest) := octal 3 text
      ([b], rest)
    else ([92], text)

/-- The text as `echo` writes it, behind `done`, which is reversed, and whether it goes on. -/
def echoed : (fuel : Nat) → (done : Bytes) → Text → Bytes × Bool
  | 0, done, _ | _ + 1, done, [] => (done.reverse, true)
  | _ + 1, done, '\\' :: 'c' :: _ => (done.reverse, false)
  | fuel + 1, done, '\\' :: '0' :: c :: rest =>
    let (bytes, rest) := escape (if '0' ≤ c && c ≤ '7' then c :: rest else '0' :: c :: rest)
    echoed fuel (bytes.reverse ++ done) rest
  | fuel + 1, done, '\\' :: rest =>
    let (bytes, rest) := escape rest
    echoed fuel (bytes.reverse ++ done) rest
  | fuel + 1, done, c :: rest => echoed fuel ((String.utf8EncodeChar c).reverse ++ done) rest

def echo (args : List Text) : Bytes :=
  let (line, args) := match args with
    | ['-', 'n'] :: rest => (false, rest)
    | args => (true, args)
  let text := [' '].intercalate args
  let (bytes, goesOn) := echoed (text.length + 1) [] text
  if line && goesOn then bytes ++ [10] else bytes

/-- The number that an argument of `printf` is. -/
def number (arg : Text) : Int :=
  match arg with
  | '\'' :: c :: _ | '"' :: c :: _ => c.toNat
  | '0' :: 'x' :: digits => ((Numeral.read? 16 digits).getD 0 : Nat)
  | '0' :: d :: digits => ((Numeral.read? 8 (d :: digits)).getD 0 : Nat)
  | _ => (Numeral.readSigned? 10 (Nat.pow 2 63) arg).getD 0

/-- Blanks or zeros that bring the text to the width. -/
def padded (flags : Text) (width : Nat) (text : Text) : Text :=
  if flags.contains '-' then text ++ List.replicate (width - text.length) ' '
  else if flags.contains '0' then Numeral.padLeft width '0' text
  else Numeral.padLeft width ' ' text

/-- One pass over the format of `printf`: the bytes written behind `done`, which is reversed, the
arguments left, and whether an argument was called for. -/
def formatOnce : (fuel : Nat) → (done : Bytes) → (called : Bool) → (args : List Text) → Text →
    Bytes × List Text × Bool
  | 0, done, called, args, _ | _ + 1, done, called, args, [] => (done, args, called)
  | fuel + 1, done, called, args, '\\' :: rest =>
    let (bytes, rest) := escape rest
    formatOnce fuel (bytes.reverse ++ done) called args rest
  | fuel + 1, done, called, args, '%' :: '%' :: rest =>
    formatOnce fuel (37 :: done) called args rest
  | fuel + 1, done, called, args, '%' :: rest =>
    let isFlag := fun c => c == '-' || c == '0' || c == '+' || c == ' ' || c == '#'
    let flags := rest.takeWhile isFlag
    let rest := rest.dropWhile isFlag
    let width := (Numeral.read? 10 (rest.takeWhile Char.isDigit)).getD 0
    let rest := rest.dropWhile Char.isDigit
    let (precision, rest) := match rest with
      | '.' :: rest =>
        (some ((Numeral.read? 10 (rest.takeWhile Char.isDigit)).getD 0),
          rest.dropWhile Char.isDigit)
      | rest => (none, rest)
    match rest with
    | [] => (done, args, called)
    | letter :: rest =>
      let arg := args.headD []
      let bytes :=
        if letter == 's' then
          Utf8.encode (padded flags width (match precision with
            | some n => arg.take n
            | none => arg))
        else if letter == 'c' then Utf8.encode (padded flags width (arg.take 1))
        else if letter == 'b' then (echoed (arg.length + 1) [] arg).1
        else if letter == 'x' then
          Utf8.encode (padded flags width (Numeral.signed 16 (number arg)))
        else if letter == 'o' then
          Utf8.encode (padded flags width (Numeral.signed 8 (number arg)))
        else Utf8.encode (padded flags width (Numeral.signed 10 (number arg)))
      formatOnce fuel (bytes.reverse ++ done) true args.tail rest
  | fuel + 1, done, called, args, c :: rest =>
    formatOnce fuel ((String.utf8EncodeChar c).reverse ++ done) called args rest

/-- The format is gone through again while arguments are left. -/
def formatAll (format : Text) : (fuel : Nat) → (done : Bytes) → (args : List Text) → Bytes
  | 0, done, _ => done.reverse
  | fuel + 1, done, args =>
    let (done, left, called) := formatOnce (format.length + 1) done false args format
    if called && !left.isEmpty then formatAll format fuel done left else done.reverse

/-- Whether the arguments of `kill` end the script. -/
def killsItself (args : List Text) : Bool :=
  args.getLast? == some ownNumber && args.head? != some ['-', '0']

/-- Runs a command by its fields; `self` is the name that the script was started by. -/
def runFields (self : Text) (line : Nat) (out err : Stream) (s : State) : List Text → State
  | [] => { s with status := 0 }
  | name :: args =>
    match String.ofList name with
    | "echo" => { s.write out (echo args) with status := 0 }
    | "printf" =>
      match args with
      | [] => { s with status := 2 }
      | format :: args =>
        { s.write out (formatAll format (args.length + 1) [] args) with status := 0 }
    | "true" | ":" | "cat" | "export" | "unset" | "set" | "sleep" => { s with status := 0 }
    | "false" => { s with status := 1 }
    | "exit" =>
      let status := match args with
        | [] => s.status
        | arg :: _ => (Numeral.read? 10 arg).getD 2 % 256
      { s with status, ended := true }
    | "kill" =>
      if killsItself args then { s with status := 137, ended := true } else { s with status := 0 }
    | _ =>
      let message := self ++ ": ".toList ++ Numeral.decimal line ++ ": ".toList ++ name ++
        ": not found\n".toList
      { s.write err (Utf8.encode message) with status := 127 }

/-- Where the two streams of a command go. -/
def streams (redirects : List (Nat × Option Nat)) : Stream × Stream :=
  redirects.foldl (fun (out, err) (stream, copied) =>
    let target := match copied with
      | some 1 => out
      | some 2 => err
      | _ => .nowhere
    if stream = 1 then (target, err) else if stream = 2 then (out, target) else (out, err))
    (.output, .errors)

def runCommand (self : Text) (line : Nat) (s : State) (c : Command) : State :=
  let due := match c.joint with
    | .always => true
    | .onSuccess => s.status == 0
    | .onFailure => s.status != 0
  if s.ended || !due then s
  else
    let assignments := (c.words.takeWhile fun w => (assignment? w).isSome).filterMap assignment?
    let words := c.words.drop assignments.length
    let (out, err) := streams c.redirects
    let found := words.flatMap (fields s)
    if found.isEmpty then
      let bound := assignments.foldl (fun bound (name, value) =>
        (name, plainText { s with bound } value) :: bound) s.bound
      { s with bound, status := 0 }
    else runFields self line out err s found

/-- Runs the lines from the given number on. -/
def runLines (self : Text) (line : Nat) (s : State) : List (List Token) → State
  | [] => s
  | tokens :: rest =>
    if s.ended then s
    else if tokens.isEmpty then runLines self (line + 1) s rest
    else
      match commands [] {} tokens with
      | .error fault =>
        let message := self ++ ": ".toList ++ Numeral.decimal line ++ ": ".toList ++
          fault.message.toList ++ ['\n']
        { s.write .errors (Utf8.encode message) with status := 2, ended := true }
      | .ok commands =>
        let commands := commands.filter fun c => !c.words.isEmpty || !c.redirects.isEmpty
        runLines self (line + 1) (commands.foldl (runCommand self line) s) rest

/-- The tokens line by line, behind the lines `done` and the line `current`, which are reversed. -/
def splitLines (done : List (List Token)) (current : List Token) : List Token → List (List Token)
  | [] => (current.reverse :: done).reverse
  | .newline :: rest => splitLines (current.reverse :: done) [] rest
  | token :: rest => splitLines done (token :: current) rest

/-- Runs a script. -/
def run (self script : Text) : State :=
  runLines self 1 {} (splitLines [] [] (tokens (script.length + 1) [] script))

end Octoglyph.Shell
