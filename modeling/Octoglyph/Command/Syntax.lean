import Octoglyph.Command.Arguments
import Octoglyph.Process.Interpreter

/-! # The commands -/

namespace Octoglyph

open Arguments

/-- A path of a file. -/
abbrev Path := Text

structure EncodeOptions where
  /-- Nothing, or `-`, is the standard input. -/
  input : Option Path := none
  /-- Nothing is the standard output. -/
  output : Option Path := none
  strategy : Option Strategy := none
  config : Option Path := none
  verify : Bool := false
deriving DecidableEq, Repr

structure CheckOptions where
  cases : List Path := []
  noDefaults : Bool := false
  interpreter : Interpreter := .standard
  strategies : List Strategy := [default]
  verbose : Bool := false
deriving DecidableEq, Repr

structure GrowthOptions where
  maxLength : Nat := 100
  seed : UInt64 := 0
  strategy : Strategy := default
deriving DecidableEq, Repr

inductive Command where
  | encode (options : EncodeOptions)
  | decode (input : Option Path)
  | check (options : CheckOptions)
  | growth (options : GrowthOptions)
  | completions (shell : String)
  | version
  | help
deriving DecidableEq, Repr

namespace Command

/-- Turns a value into what it stands for. -/
def convert (name : String) (read? : Text → Option α) (value : Text) : Except UsageError α :=
  match read? value with
  | some a => .ok a
  | none => .error (.badValue name value)

/-- The value of an option that is given at most once. -/
def single? (p : Parsed) (name : String) (read? : Text → Option α) :
    Except UsageError (Option α) :=
  match p.value? name with
  | none => .ok none
  | some value => (convert name read? value).map some

/-- The values of an option in order. -/
def several (p : Parsed) (name : String) (read? : Text → Option α) : Except UsageError (List α) :=
  (p.values name).mapM (convert name read?)

/-- A path is not empty. -/
def path? (value : Text) : Option Path := if value.isEmpty then none else some value

def strategy? (value : Text) : Option Strategy := Strategy.ofName? (String.ofList value)

/-- A number in 64 bits. -/
def size? (value : Text) : Option Nat := Numeral.readUnsigned? 10 (Nat.pow 2 64) value

/-- The only operand, a path. -/
def input? (p : Parsed) : Except UsageError (Option Path) :=
  match p.operands.head? with
  | none => .ok none
  | some value => (convert "input" path? value).map some

def strategySpec : OptionSpec := { name := "strategy", letter := some 's' }

def encodeSpecs : List OptionSpec :=
  [{ name := "output", letter := some 'o' }, strategySpec, { name := "config" },
    { name := "verify", takesValue := false }]

def checkSpecs : List OptionSpec :=
  [{ name := "cases", repeatable := true }, { name := "no-defaults", takesValue := false },
    { name := "python" }, { strategySpec with repeatable := true },
    { name := "verbose", letter := some 'v', takesValue := false }]

def growthSpecs : List OptionSpec := [{ name := "max-len" }, { name := "seed" }, strategySpec]

def parseEncode (args : List Text) : Except UsageError Command := do
  let p ← parse encodeSpecs 1 args
  return .encode {
    input := ← input? p
    output := ← single? p "output" path?
    strategy := ← single? p "strategy" strategy?
    config := ← single? p "config" path?
    verify := p.has "verify" }

def parseDecode (args : List Text) : Except UsageError Command := do
  return .decode (← input? (← parse [] 1 args))

def parseCheck (args : List Text) : Except UsageError Command := do
  let p ← parse checkSpecs 0 args
  let start : CheckOptions := {}
  let strategies ← several p "strategy" strategy?
  return .check {
    cases := ← several p "cases" path?
    noDefaults := p.has "no-defaults"
    interpreter := (p.value? "python").elim start.interpreter Interpreter.mk
    strategies := if strategies.isEmpty then start.strategies else strategies
    verbose := p.has "verbose" }

def parseGrowth (args : List Text) : Except UsageError Command := do
  let p ← parse growthSpecs 0 args
  let start : GrowthOptions := {}
  let seed? ← single? p "seed" size?
  return .growth {
    maxLength := (← single? p "max-len" size?).getD start.maxLength
    seed := seed?.elim start.seed Nat.toUInt64
    strategy := (← single? p "strategy" strategy?).getD start.strategy }

/-- The shells that completions exist for. -/
def shells : List String := ["bash", "elvish", "fish", "powershell", "zsh"]

def parseCompletions (args : List Text) : Except UsageError Command := do
  let p ← parse [] 1 args
  match p.operands.head? with
  | none => .error .missingOperand
  | some shell =>
    if shells.contains (String.ofList shell) then return .completions (String.ofList shell)
    else .error (.badValue "shell" shell)

/-- The commands by name. -/
def table : List (String × (List Text → Except UsageError Command)) :=
  [("encode", parseEncode), ("decode", parseDecode), ("check", parseCheck),
    ("growth", parseGrowth), ("completions", parseCompletions)]

/-- Whether help is asked for. -/
def asksHelp (args : List Text) : Bool :=
  (args.takeWhile (· != ['-', '-'])).any fun arg =>
    arg == "--help".toList || arg == ['-', 'h']

/-- The command that the arguments give. -/
def ofArguments : List Text → Except UsageError Command
  | [] => .error .missingCommand
  | arg :: rest =>
    match arg with
    | '-' :: 'V' :: _ => .ok .version
    | '-' :: 'h' :: _ => .ok .help
    | _ =>
      if arg = "--version".toList then .ok .version
      else if arg = "--help".toList || arg = "help".toList then .ok .help
      else
        match table.find? fun entry => entry.1.toList == arg with
        | some (_, parse) => if asksHelp rest then .ok .help else parse rest
        | none => if isOption arg then .error (.unknownOption arg) else .error (.unknownCommand arg)

end Command

end Octoglyph
