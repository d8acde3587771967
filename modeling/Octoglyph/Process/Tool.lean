import Octoglyph.Process.Digest
import Octoglyph.Process.Host
import Octoglyph.Process.Shell

/-! # Standard tools

The programs that stand in for an interpreter: `true`, `false`, `echo`, `sha256sum` and `sh`.
-/

namespace Octoglyph

inductive Tool where
  | succeed
  | fail
  | echo
  | digest
  | shell
deriving DecidableEq, Repr

namespace Tool

/-- The directories that tools are found in. -/
def directories : List String := ["", "/bin/", "/usr/bin/"]

def names : List (String × Tool) :=
  [("true", .succeed), ("false", .fail), ("echo", .echo), ("sha256sum", .digest), ("sh", .shell)]

/-- The tool that a program name calls. -/
def find? (program : Text) : Option Tool :=
  (directories.findSome? fun directory => names.find? fun (name, _) =>
    (directory ++ name).toList == program).map Prod.snd

/-- Whether the tool reads what is piped into it. -/
def readsInput : Tool → Bool
  | .digest | .shell => true
  | .succeed | .fail | .echo => false

/-- A file name as it is put into a complaint: in quotes unless it is plain. -/
def shown (name : Text) : Text :=
  let isPlain := fun c => Char.isAlphanum c || "%+,-./:@_".toList.contains c
  if !name.isEmpty && name.all isPlain then name
  else if name.contains '\'' && !name.any (fun c => "\"$`\\".toList.contains c) then
    '"' :: (name ++ ['"'])
  else '\'' :: (name.flatMap (fun c => if c = '\'' then "'\\''".toList else [c]) ++ ['\''])

def shellCompletion (self script : Text) : Completion :=
  let s := Shell.run self script
  ⟨s.output.reverse.flatten, s.errors.reverse.flatten, s.status == 0⟩

/-- What a tool says when it is asked for its version: its name; the shell and `false` refuse. -/
def version (self : Text) : Tool → Completion
  | .fail => { success := false }
  | .shell =>
    { stderr := Utf8.encode (self ++ ": 0: Illegal option --\n".toList), success := false }
  | .succeed | .echo | .digest => { stdout := Utf8.encode (self ++ ['\n']) }

/-- Runs the tool on its arguments and its input. -/
def run (self : Text) (args : List Text) (input : Bytes) (tool : Tool) : Completion :=
  if args = ["--version".toList] then tool.version self
  else
    match tool with
    | .succeed => {}
    | .fail => { success := false }
    | .echo => { stdout := Utf8.encode ([' '].intercalate args ++ ['\n']) }
    | .digest =>
      match args with
      | [['-', 'c'], name] =>
        { stderr := Utf8.encode ("sha256sum: ".toList ++ shown name ++
            ": No such file or directory\n".toList)
          success := false }
      | _ => { stdout := Utf8.encode (Digest.sha256 input ++ "  -\n".toList) }
    | .shell =>
      match args with
      | [['-', 'c'], script] => shellCompletion self script
      | _ => shellCompletion self (Utf8.decodeLossy input)

/-- What a pipe holds before anyone reads from it. -/
def pipeCapacity : Nat := 65536

/-- Starts a program, if it is one of the tools. -/
def launch (l : Launch) : Except LaunchFault Completion :=
  if (l.program :: l.args).any fun text => text.contains '\x00' then .error (.start .nulByte)
  else
    match find? l.program with
    | none => .error (.start .notFound)
    | some tool =>
      let input := l.input.getD []
      if !tool.readsInput && pipeCapacity < input.length then .error (.write .brokenPipe)
      else .ok (tool.run l.program l.args input)

end Tool

end Octoglyph
