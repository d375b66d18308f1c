import ByteSearch.Bytes

/-!
# File systems

To open a file is to ask what a path names: `FileSystem` is that question. `Node` is a tree of files
and directories, and `Node.fileSystem` answers from such a tree, seen from one of its directories.

A path is read from left to right. Each part but the last must name a directory; an empty part and a
dot name the directory itself, two dots the one above it.
-/

namespace ByteSearch.Cli

/-- Why the system cannot do what it is asked to. -/
inductive SystemFailure where
  | notFound
  | permissionDenied
  | notADirectory
  | nameTooLong
  | noSuchDevice
  /-- A path must not contain the byte zero. -/
  | nulInPath
  | other (text : String)
  deriving DecidableEq, Repr

/-- The text of a failure. -/
def SystemFailure.message : SystemFailure → String
  | notFound => "No such file or directory (os error 2)"
  | permissionDenied => "Permission denied (os error 13)"
  | noSuchDevice => "No such device (os error 19)"
  | notADirectory => "Not a directory (os error 20)"
  | nameTooLong => "File name too long (os error 36)"
  | nulInPath => "file name contained an unexpected NUL byte"
  | other text => text

/-- What a path may name. -/
inductive Opened where
  | file (content : Buffer)
  | directory
  deriving DecidableEq, Repr

/-- What a path names, or why it cannot be opened. -/
abbrev FileSystem := Bytes → Except SystemFailure Opened

/-- A file, or a directory with its entries. -/
inductive Node where
  | file (content : Buffer)
  | directory (entries : List (Bytes × Node))

namespace Node

/-- The slash. -/
def separator : UInt8 := 0x2F

/-- The greatest length of a part of a path. -/
def maxPart : Nat := 255

/-- The greatest length of a path. -/
def maxPath : Nat := 4095

/-- The parts of a path between its slashes. -/
def parts (path : Bytes) : List Bytes :=
  path.splitOn separator

/-- What a path names that goes on from a node, given the directories above that node. -/
def walk : List Node → Node → List Bytes → Except SystemFailure Node
  | _, node, [] => .ok node
  | _, .file _, _ :: _ => .error .notADirectory
  | above, .directory entries, part :: rest =>
    if part = [] ∨ part = [0x2E] then walk above (.directory entries) rest
    else if part = [0x2E, 0x2E] then
      match above with
      | [] => walk [] (.directory entries) rest
      | parent :: above => walk above parent rest
    else if maxPart < part.length then .error .nameTooLong
    else
      match entries.lookup part with
      | some node => walk (.directory entries :: above) node rest
      | none => .error .notFound

/-- What a node is when it is opened. -/
def opened : Node → Opened
  | file content => .file content
  | directory _ => .directory

/-- The files as they are seen from a directory, given the directories above it, the nearest first.
-/
def fileSystem (above : List Node) (here : Node) : FileSystem := fun path =>
  if path.contains 0 then .error .nulInPath
  else if path.isEmpty then .error .notFound
  else if maxPath < path.length then .error .nameTooLong
  else
    let start :=
      if path.head? = some separator then
        match above.getLast? with
        | some root => ([], root)
        | none => ([], here)
      else (above, here)
    (walk start.1 start.2 (parts path)).map opened

end Node

end ByteSearch.Cli
