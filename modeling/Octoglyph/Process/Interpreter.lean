import Octoglyph.Harness.Check
import Octoglyph.Process.Host

/-! # Interpreters

An interpreter is a program that runs program text: in an argument if it fits, piped otherwise.
-/

namespace Octoglyph

structure Interpreter where
  program : Text
deriving DecidableEq, Repr

namespace Interpreter

/-- The interpreter that is used if none is named. -/
def standard : Interpreter := ⟨"python3".toList⟩

/-- The most bytes that are passed in an argument. -/
def maxInline : Nat := 128 * 1024 - 1

/-- How a program text is started. -/
def launchOf (i : Interpreter) (text : Text) : Launch :=
  if text.byteLength ≤ maxInline then ⟨i.program, [['-', 'c'], text], none⟩
  else ⟨i.program, [['-']], some (Utf8.encode text)⟩

/-- What is said of a program that cannot be run. -/
def refusal (i : Interpreter) : LaunchFault → String
  | .start fault => "Failed to run " ++ String.ofList i.program ++ ": " ++ fault.message
  | .write fault =>
    "Failed to write program to " ++ String.ofList i.program ++ ": " ++ fault.message

/-- What a run produced, as text. -/
def execution (i : Interpreter) : Except LaunchFault Completion → Except String Execution
  | .error fault => .error (i.refusal fault)
  | .ok completion => .ok {
      stdout := Utf8.decodeLossy completion.stdout
      stderr := Utf8.decodeLossy completion.stderr
      success := completion.success }

variable {m : Type → Type} [Monad m]

/-- Runs a program text. -/
def run (launch : Launch → m (Except LaunchFault Completion)) (i : Interpreter) (text : Text) :
    m (Except String Execution) := do
  return i.execution (← launch (i.launchOf text))

/-- Whether the interpreter can be started. -/
def isAvailable (launch : Launch → m (Except LaunchFault Completion)) (i : Interpreter) :
    m Bool := do
  match ← launch ⟨i.program, ["--version".toList], none⟩ with
  | .ok completion => return completion.success
  | .error _ => return false

end Interpreter

end Octoglyph
