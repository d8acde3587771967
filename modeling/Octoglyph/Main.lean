import Octoglyph.Command.Workspace

/-! # The command line -/

namespace Octoglyph

/-- The host's reason for an operation that failed. -/
def faultOf : IO.Error → HostFault
  | .noFileOrDirectory .. => .notFound
  | .permissionDenied .. => .permissionDenied
  | e => .other (toString e)

/-- An operation of the host, with its failure as a value. -/
def attempt (action : IO α) : IO (Except HostFault α) := do
  match ← action.toBaseIO with
  | .ok a => return .ok a
  | .error e => return .error (faultOf e)

/-- The files and the clock of the machine. Only the standard tools can be started. -/
def machine : Host IO where
  readFile path := attempt do return (← IO.FS.readBinFile (String.ofList path)).toList
  readInput := attempt do return (← (← IO.getStdin).readBinToEnd).toList
  writeFile path bytes := attempt (IO.FS.writeBinFile (String.ofList path) ⟨bytes.toArray⟩)
  launch l := return Tool.launch l
  now := IO.monoMsNow

end Octoglyph

open Octoglyph in
def main (args : List String) : IO UInt32 := do
  match Readers.standard.command (args.map String.toList) with
  | .error _ =>
    IO.eprint Command.helpText
    return 2
  | .ok command =>
    let response ← Command.run .standard machine command
    IO.print (String.ofList response.stdout)
    IO.eprint (String.ofList response.stderr)
    return response.exit.toUInt32
