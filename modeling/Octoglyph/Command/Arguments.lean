import Octoglyph.Text

/-! # Command-line options

An option is written `--name value` or `--name=value`, and by its letter `-n value`, `-nvalue` or
`-n=value`; the letters of switches may stand together. Behind `--` there are only operands.
-/

namespace Octoglyph.Arguments

/-- An option that a command takes. -/
structure OptionSpec where
  name : String
  letter : Option Char := none
  /-- Whether a value follows; a switch has none. -/
  takesValue : Bool := true
  repeatable : Bool := false
deriving DecidableEq, Repr

/-- Why the arguments are refused. -/
inductive UsageError where
  | unknownOption (arg : Text)
  | unexpectedValue (name : String)
  | missingValue (name : String)
  | repeatedOption (name : String)
  | badValue (name : String) (value : Text)
  | unexpectedOperand (arg : Text)
  | missingOperand
  | unknownCommand (arg : Text)
  | missingCommand
deriving DecidableEq, Repr

/-- The options given, with their values, and the operands, in order. -/
structure Parsed where
  options : List (String × Text) := []
  operands : List Text := []
deriving DecidableEq, Repr

namespace Parsed

/-- The values given for an option. -/
def values (p : Parsed) (name : String) : List Text :=
  (p.options.filter fun entry => entry.1 == name).map Prod.snd

def value? (p : Parsed) (name : String) : Option Text := (p.values name).head?

/-- Whether a switch is given. -/
def has (p : Parsed) (name : String) : Bool := !(p.values name).isEmpty

/-- Adds an option, which may be there already only if it is repeatable. -/
def add (p : Parsed) (spec : OptionSpec) (value : Text) : Except UsageError Parsed :=
  if !spec.repeatable && p.has spec.name then .error (.repeatedOption spec.name)
  else .ok { p with options := p.options ++ [(spec.name, value)] }

end Parsed

/-- Whether the argument is an option rather than a value. -/
def isOption : Text → Bool
  | '-' :: _ :: _ => true
  | _ => false

/-- Reads letters that stand together. The result tells the option that still needs a value. -/
def letters (specs : List OptionSpec) (p : Parsed) :
    Text → Except UsageError (Parsed × Option OptionSpec)
  | [] => .ok (p, none)
  | c :: rest =>
    match specs.find? fun spec => spec.letter == some c with
    | none => .error (.unknownOption ['-', c])
    | some spec =>
      if spec.takesValue then
        match rest with
        | [] => .ok (p, some spec)
        | '=' :: value => (p.add spec value).map fun p => (p, none)
        | value => (p.add spec value).map fun p => (p, none)
      else
        match p.add spec [] with
        | .error e => .error e
        | .ok p => letters specs p rest

/-- Reads an option by its name. The result tells the option that still needs a value. -/
def named (specs : List OptionSpec) (p : Parsed) (body : Text) :
    Except UsageError (Parsed × Option OptionSpec) :=
  let (name, attached) := match Text.cutAt? ['='] body with
    | some (name, value) => (name, some value)
    | none => (body, none)
  match specs.find? fun spec => spec.name.toList == name with
  | none => .error (.unknownOption ('-' :: '-' :: name))
  | some spec =>
    match spec.takesValue, attached with
    | true, some value => (p.add spec value).map fun p => (p, none)
    | true, none => .ok (p, some spec)
    | false, some _ => .error (.unexpectedValue spec.name)
    | false, none => (p.add spec []).map fun p => (p, none)

/-- Reads the arguments. `wanting` is the option whose value comes next, if there is one. -/
def parseFrom (specs : List OptionSpec) (p : Parsed) (wanting : Option OptionSpec) :
    List Text → Except UsageError Parsed
  | [] =>
    match wanting with
    | some spec => .error (.missingValue spec.name)
    | none => .ok p
  | arg :: rest =>
    match wanting with
    | some spec =>
      if isOption arg then .error (.missingValue spec.name)
      else
        match p.add spec arg with
        | .error e => .error e
        | .ok p => parseFrom specs p none rest
    | none =>
      match arg with
      | ['-', '-'] => .ok { p with operands := p.operands ++ rest }
      | '-' :: '-' :: body =>
        match named specs p body with
        | .error e => .error e
        | .ok (p, wanting) => parseFrom specs p wanting rest
      | '-' :: c :: cs =>
        match letters specs p (c :: cs) with
        | .error e => .error e
        | .ok (p, wanting) => parseFrom specs p wanting rest
      | operand => parseFrom specs { p with operands := p.operands ++ [operand] } none rest

/-- Reads the arguments of a command that takes at most `limit` operands. -/
def parse (specs : List OptionSpec) (limit : Nat) (args : List Text) :
    Except UsageError Parsed := do
  let p ← parseFrom specs {} none args
  match p.operands[limit]? with
  | some operand => .error (.unexpectedOperand operand)
  | none => .ok p

end Octoglyph.Arguments
