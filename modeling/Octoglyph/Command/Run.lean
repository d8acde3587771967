import Octoglyph.Command.Syntax
import Octoglyph.Encoder.ConfigFile
import Octoglyph.Growth.Source
import Octoglyph.Growth.Tenths
import Octoglyph.Harness.Report

/-! # Running commands

A command reads and writes files through its host. What it prints is collected, so that a command
that fails has printed nothing but its complaint. How command lines and files are understood is left
to readers, which can be any.
-/

namespace Octoglyph

/-- What commands need from the outside. -/
structure Host (m : Type → Type) where
  readFile : Path → m (Except HostFault Bytes)
  readInput : m (Except HostFault Bytes)
  writeFile : Path → Bytes → m (Except HostFault Unit)
  launch : Launch → m (Except LaunchFault Completion)
  /-- The time in milliseconds. -/
  now : m Nat

/-- How arguments and the contents of files are understood. -/
structure Readers where
  command : List Text → Except Arguments.UsageError Command
  config : Text → Except Toml.Problem Config
  suite : Text → Except Toml.Problem Suite

/-- The readers of the command line tool, with TOML for all files. -/
def Readers.standard : Readers where
  command := Command.ofArguments
  config := Config.ofToml
  suite := Suite.ofToml

/-- How a command ends and what it has printed. -/
structure Response where
  exit : Nat := 0
  stdout : Text := []
  stderr : Text := []
deriving DecidableEq, Repr

namespace Response

/-- Fails with a complaint. -/
def complaint (message : String) : Response :=
  { exit := 1, stderr := ("Error: " ++ message ++ "\n").toList }

/-- Stops where a string would have to be too long. -/
def overflow : Response := { exit := 101, stderr := "capacity overflow\n".toList }

end Response

namespace Command

variable {m : Type → Type} [Monad m]

/-- The text of what was read, or a complaint that names it. -/
def textOf (what : String) : Except HostFault Bytes → Except String Text
  | .error fault => .error ("Failed to read " ++ what ++ ": " ++ fault.message)
  | .ok bytes =>
    match Utf8.decode? bytes with
    | some text => .ok text
    | none => .error ("Failed to read " ++ what ++ ": " ++ HostFault.invalidText.message)

/-- Reads a file as text. -/
def readText (host : Host m) (what : String) (path : Path) : ExceptT String m Text := do
  ExceptT.mk (return textOf (what ++ String.ofList path) (← host.readFile path))

/-- The path without what does not change where it leads, part by part. -/
def pathParts (path : Path) : List Text :=
  path.foldr (fun c parts =>
    if c = '/' then [] :: parts
    else
      match parts with
      | part :: rest => (c :: part) :: rest
      | [] => [[c]]) [[]]

/-- Whether the path is `-`, which stands for the standard input. -/
def isDash (path : Path) : Bool :=
  match pathParts path with
  | ['-'] :: rest => rest.all fun part => part = [] || part = ['.']
  | _ => false

/-- Reads the input of a command. -/
def readSource (host : Host m) (input : Option Path) : ExceptT String m Text :=
  match input.filter fun path => !isDash path with
  | some path => readText host "" path
  | none => do ExceptT.mk (return textOf "stdin" (← host.readInput))

/-- Reads settings from a file, if one is given. -/
def readConfig (readers : Readers) (host : Host m) (path? : Option Path) :
    ExceptT String m Config :=
  match path? with
  | none => return {}
  | some path => do
    let text ← readText host "config " path
    match readers.config text with
    | .ok config => return config
    | .error problem => throw (Config.refusal problem)

/-- The settings with those of the command line over them. -/
def override (options : EncodeOptions) (config : Config) : Config :=
  { config with
    strategy := options.strategy.getD config.strategy
    verify := options.verify || config.verify }

def runEncode (readers : Readers) (host : Host m) (options : EncodeOptions) :
    ExceptT String m Response := do
  let config ← readConfig readers host options.config
  let program ← readSource host options.input
  match Octoglyph.encode (override options config) program with
  | .error .overflow => return .overflow
  | .error (.refused e) => throw e.message
  | .ok encoded =>
    match options.output with
    | none => return { stdout := encoded.text ++ ['\n'] }
    | some path =>
      match ← host.writeFile path (Utf8.encode encoded.text) with
      | .error fault =>
        throw ("Failed to write " ++ String.ofList path ++ ": " ++ fault.message)
      | .ok () =>
        return { stderr := ("Encoded " ++ toString program.length ++ " chars -> " ++
          toString encoded.text.byteLength ++ " chars in " ++ String.ofList path ++ "\n").toList }

/-- The text without the line breaks at its end. -/
def trimEnd (text : Text) : Text :=
  (text.reverse.dropWhile fun c => c = '\n' || c = '\r').reverse

def runDecode (host : Host m) (input : Option Path) : ExceptT String m Response := do
  let text ← readSource host input
  match Octoglyph.decode (trimEnd text) with
  | .ok program => return { stdout := program }
  | .error diagnosis => throw diagnosis.message

/-- Reads a file of cases. -/
def readSuite (readers : Readers) (host : Host m) (path : Path) : ExceptT String m Suite := do
  let text ← readText host "cases " path
  match readers.suite text with
  | .ok suite => return suite
  | .error problem => throw (Suite.refusal problem)

def runCheck (readers : Readers) (host : Host m) (options : CheckOptions) :
    ExceptT String m Response := do
  let start : Suite := if options.noDefaults then {} else Suite.builtIn
  let suite ← options.cases.foldlM (fun suite path => do
    return suite.merge (← readSuite readers host path)) start
  let available ← ExceptT.lift (options.interpreter.isAvailable host.launch)
  if !available then
    throw ("Interpreter '" ++ String.ofList options.interpreter.program ++ "' is not available")
  let bench : Bench m := ⟨options.interpreter.run host.launch, host.now⟩
  match ← ExceptT.lift (Harness.run bench {} options.strategies suite).run with
  | none => return .overflow
  | some summary =>
    let stdout := (summary.report options.verbose).toList
    if 0 < summary.failed then return { exit := 1, stdout }
    else if summary.total = 0 then
      return { exit := 2, stdout, stderr := "No cases found\n".toList }
    else return { stdout }

/-- Two columns of numbers. -/
def row (left right : Text) : Text :=
  Numeral.padLeft 8 ' ' left ++ ' ' :: Numeral.padLeft 12 ' ' right ++ ['\n']

/-- The table of measurements, with the gradient under it. -/
def growthTable (samples : List Growth.Sample) : Text :=
  row "input".toList "output".toList ++
    samples.flatMap (fun s =>
      row (Numeral.decimal s.inputLength) (Numeral.decimal s.outputLength)) ++
    match Growth.gradient? samples with
    | some gradient => ("\nApproximate gradient: " ++ Growth.showTenths gradient ++ "\n").toList
    | none => []

def runGrowth (options : GrowthOptions) : Except String Response :=
  let config : Config := { strategy := options.strategy, maxCodePoint := Growth.codeBound }
  match Growth.sample Growth.Source.draw config 1 options.maxLength
      (Growth.Source.ofSeed options.seed) with
  | .error .overflow => .ok .overflow
  | .error (.refused e) => .error e.message
  | .ok (samples, _) => .ok { stdout := growthTable samples }

/-- The program and its version. -/
def versionText : String := "pyfck 0.3.0\n"

def helpText : String :=
  "pyfck - write any Python program with eight symbols\n\n" ++
  "Usage: pyfck <COMMAND>\n\nCommands:\n" ++
  "  encode       Encode a Python program\n" ++
  "  decode       Recover the program an encoded text runs\n" ++
  "  check        Check encodings against a Python interpreter\n" ++
  "  growth       Measure encoded length against input length for random programs\n" ++
  "  completions  Generate shell completion scripts\n"

/-- The words that complete a command line. -/
def completionText : String :=
  "complete -W \"" ++ " ".intercalate (table.map Prod.fst) ++ "\" pyfck\n"

/-- Runs a command. -/
def run (readers : Readers) (host : Host m) (command : Command) : m Response := do
  let result ← match command with
    | .encode options => (runEncode readers host options).run
    | .decode input => (runDecode host input).run
    | .check options => (runCheck readers host options).run
    | .growth options => pure (runGrowth options)
    | .completions _ => pure (.ok { stdout := completionText.toList })
    | .version => pure (.ok { stdout := versionText.toList })
    | .help => pure (.ok { stdout := helpText.toList })
  match result with
  | .ok response => return response
  | .error message => return .complaint message

end Command

end Octoglyph
