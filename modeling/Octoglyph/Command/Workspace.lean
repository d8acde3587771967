import Octoglyph.Command.Run
import Octoglyph.Process.Tool

/-! # A workspace held in memory

A directory of files and a standard input, as a host for commands. The programs that can be started
are the standard tools, and no time passes.
-/

namespace Octoglyph

structure Workspace where
  /-- The files by the parts of their paths. -/
  files : List (List Text × Bytes) := []
  stdin : Bytes := []
deriving DecidableEq, Repr

namespace Workspace

/-- Where a path leads. -/
inductive Place where
  | directory (parts : List Text)
  | file (parts : List Text) (bytes : Bytes)
  /-- Nothing is there, but its directory is. -/
  | free (parts : List Text)
  /-- A directory on the way is missing. -/
  | nowhere
  /-- A file on the way is no directory. -/
  | throughFile
  /-- Takes everything and holds nothing. -/
  | sink
deriving DecidableEq, Repr

def isDirectory (w : Workspace) (parts : List Text) : Bool :=
  parts.isEmpty || w.files.any fun entry => parts.isPrefixOf entry.1 && parts != entry.1

/-- Where one more part leads. The workspace has no parent. -/
def enter (w : Workspace) (place : Place) (part : Text) : Place :=
  match place with
  | .directory parts =>
    if part = [] || part = ['.'] then .directory parts
    else if part = ['.', '.'] then (if parts.isEmpty then .nowhere else .directory parts.dropLast)
    else
      let inner := parts ++ [part]
      match w.files.lookup inner with
      | some bytes => .file inner bytes
      | none => if w.isDirectory inner then .directory inner else .free inner
  | .file .. => .throughFile
  | .free _ => .nowhere
  | place => place

/-- Where a path leads. -/
def find (w : Workspace) (path : Path) : Place :=
  match Command.pathParts path with
  | [[]] => .nowhere
  | [] :: rest =>
    if rest.all List.isEmpty then .directory []
    else if rest = ["dev".toList, "null".toList] then .sink
    else .nowhere
  | parts => parts.foldl w.enter (.directory [])

def read (w : Workspace) (path : Path) : Except HostFault Bytes :=
  match w.find path with
  | .directory _ => .error .isDirectory
  | .file _ bytes => .ok bytes
  | .free _ | .nowhere => .error .notFound
  | .throughFile => .error .notDirectory
  | .sink => .ok []

/-- Binds the file in its place, or behind the others if it is new. -/
def put (w : Workspace) (parts : List Text) (bytes : Bytes) : Workspace :=
  if w.files.any fun entry => entry.1 == parts then
    { w with files := w.files.map fun entry => if entry.1 == parts then (parts, bytes) else entry }
  else { w with files := w.files ++ [(parts, bytes)] }

def write (w : Workspace) (path : Path) (bytes : Bytes) : Except HostFault Workspace :=
  match w.find path with
  | .directory _ => .error .isDirectory
  | .file parts _ | .free parts => .ok (w.put parts bytes)
  | .nowhere => .error .notFound
  | .throughFile => .error .notDirectory
  | .sink => .ok w

/-- Commands work on the workspace. -/
def host : Host (StateM Workspace) where
  readFile path := return (← get).read path
  readInput := return .ok (← get).stdin
  writeFile path bytes := do
    match (← get).write path bytes with
    | .ok w =>
      set w
      return .ok ()
    | .error fault => return .error fault
  launch l := return Tool.launch l
  now := return 0

/-- Runs a command line in the workspace. -/
def runCommand (readers : Readers) (args : List Text) (w : Workspace) :
    Except Arguments.UsageError (Response × Workspace) :=
  match readers.command args with
  | .error e => .error e
  | .ok command => .ok ((Command.run readers host command).run w)

end Workspace

end Octoglyph
