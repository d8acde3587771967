import Octoglyph.Text.Utf8

/-! # What a command can ask of its host -/

namespace Octoglyph

/-- Why the host refuses. -/
inductive HostFault where
  | notFound
  | permissionDenied
  | notDirectory
  | isDirectory
  | brokenPipe
  | nulByte
  | invalidText
  | other (message : String)
deriving DecidableEq, Repr

def HostFault.message : HostFault → String
  | .notFound => "No such file or directory (os error 2)"
  | .permissionDenied => "Permission denied (os error 13)"
  | .notDirectory => "Not a directory (os error 20)"
  | .isDirectory => "Is a directory (os error 21)"
  | .brokenPipe => "Broken pipe (os error 32)"
  | .nulByte => "nul byte found in provided data"
  | .invalidText => "stream did not contain valid UTF-8"
  | .other message => message

/-- A program to start, with its arguments and what is piped into it. -/
structure Launch where
  program : Text
  args : List Text
  input : Option Bytes := none
deriving DecidableEq, Repr

/-- What a program that has ended leaves. -/
structure Completion where
  stdout : Bytes := []
  stderr : Bytes := []
  success : Bool := true
deriving DecidableEq, Repr

/-- A program that was not started, or did not take its input. -/
inductive LaunchFault where
  | start (fault : HostFault)
  | write (fault : HostFault)
deriving DecidableEq, Repr

end Octoglyph
