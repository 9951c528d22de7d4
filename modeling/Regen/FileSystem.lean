import Regen.Assoc
import Regen.Errno
import Regen.Path

/-! A file system as a value. Files and directories lie at places, which are the
names on the way from the root; a path leads to a place, two dots going up from
where the names before them lead. -/
namespace Regen

/-- The content of a file. -/
abbrev Bytes := List UInt8

/-- What lies at a place. -/
inductive FileSystem.Node where
  | file (content : Bytes)
  | directory
deriving DecidableEq, Repr

/-- The names on the way from the root. -/
abbrev Place := List String

structure FileSystem where
  nodes : Assoc Place FileSystem.Node
  /-- The directory from which relative paths start. -/
  workingDirectory : Place
deriving Repr

/-- Why a file operation fails. -/
inductive FileFault where
  | system (error : FileError)
  | nullCharacter
deriving DecidableEq, Repr

/-- Whether the fault is that something is not there. -/
def FileFault.isNotFound : FileFault → Bool
  | .system error => error.errno = Errno.notFound
  | .nullCharacter => false

/-- The file system after an attempt to change it, and why the attempt failed
where it did. -/
structure Change where
  files : FileSystem
  fault : Option FileFault
deriving Repr

/-- The change that an operation without partial effects makes. -/
def Change.ofExcept (files : FileSystem) : Except FileFault FileSystem → Change
  | .ok changed => ⟨changed, none⟩
  | .error fault => ⟨files, some fault⟩

namespace FileSystem

/-- The greatest number of bytes in a name. -/
def nameLimit : Nat := 255

/-- The number of bytes that a path has to stay below. -/
def pathLimit : Nat := 4096

/-- What lies at a place; the root is always there. -/
def node? (files : FileSystem) (place : Place) : Option Node :=
  if place = [] then some .directory else files.nodes.get? place

/-- The file system with a node put at a place. -/
def put (files : FileSystem) (place : Place) (node : Node) : FileSystem :=
  { files with nodes := files.nodes.set place node }

/-- The place that names lead to from a place. Every name has to be looked up
in a directory; the last one need not be found there. -/
def walk (files : FileSystem) (place : Place) : List String → Except Errno Place
  | [] => .ok place
  | name :: more =>
    match files.node? place with
    | none => .error Errno.notFound
    | some (.file _) => .error Errno.notDirectory
    | some .directory =>
      if nameLimit < name.utf8ByteSize then .error Errno.nameTooLong
      else if name = ".." then walk files place.dropLast more
      else walk files (place ++ [name]) more

/-- The place a path leads to. -/
def locate (files : FileSystem) (path : Path) : Except FileFault Place :=
  if path.text.toList.contains '\x00' then .error .nullCharacter
  else if pathLimit ≤ path.text.utf8ByteSize then
    .error (.system ⟨Errno.nameTooLong, path.text⟩)
  else
    (files.walk (if path.isAbsolute then [] else files.workingDirectory) path.parts).mapError
      fun errno => .system ⟨errno, path.text⟩

/-- The content of the file at a path. -/
def read (files : FileSystem) (path : Path) : Except FileFault Bytes := do
  match files.node? (← files.locate path) with
  | none => .error (.system ⟨Errno.notFound, path.text⟩)
  | some .directory => .error (.system ⟨Errno.isDirectory, path.text⟩)
  | some (.file content) => return content

/-- The file system once the file at a path has the content; the file is made
where there is none. -/
def write (files : FileSystem) (path : Path) (content : Bytes) : Except FileFault FileSystem := do
  let place ← files.locate path
  match files.node? place with
  | some .directory => .error (.system ⟨Errno.isDirectory, path.text⟩)
  | _ => return files.put place (.file content)

/-- Whether something lies at the path; a path that leads through a file or
nowhere has nothing, but one that cannot be looked up is an error. -/
def isThere (files : FileSystem) (path : Path) : Except FileFault Bool :=
  match files.locate path with
  | .ok place => .ok (files.node? place).isSome
  | .error (.system error) =>
    if error.errno = Errno.nameTooLong then .error (.system error) else .ok false
  | .error .nullCharacter => .ok false

/-- Whether a file lies at the path. -/
def isFile (files : FileSystem) (path : Path) : Except FileFault Bool := do
  if ← files.isThere path then
    match files.locate path with
    | .ok place => return files.node? place ≠ some .directory
    | .error _ => return false
  else return false

/-- Makes one directory. -/
def makeDirectory (files : FileSystem) (path : Path) : Except FileFault FileSystem := do
  let place ← files.locate path
  match files.node? place with
  | some _ => .error (.system ⟨Errno.existing, path.text⟩)
  | none => return files.put place .directory

/-- Makes a directory unless it is there. -/
def ensureDirectory (files : FileSystem) (path : Path) : Except FileFault FileSystem :=
  match files.makeDirectory path with
  | .ok files => .ok files
  | .error fault =>
    match files.locate path with
    | .ok place => if files.node? place = some .directory then .ok files else .error fault
    | .error _ => .error fault

/-- Makes the directory at a path that has `levels` names below where it
starts, and those above it, unless they are there. The directory itself is
tried first, and those above it only where it cannot be made for want of them;
what could be made stays. -/
def ensureDirectories (files : FileSystem) (path : Path) : (levels : Nat) → Change
  | 0 => .ofExcept files (files.ensureDirectory path)
  | levels + 1 =>
    match files.ensureDirectory path with
    | .ok made => ⟨made, none⟩
    | .error fault =>
      if fault.isNotFound then
        match files.ensureDirectories path.parent levels with
        | ⟨above, none⟩ => .ofExcept above (above.ensureDirectory path)
        | failed => failed
      else ⟨files, some fault⟩

/-- Removes the file at a path. -/
def remove (files : FileSystem) (path : Path) : Except FileFault FileSystem := do
  let place ← files.locate path
  match files.node? place with
  | none => .error (.system ⟨Errno.notFound, path.text⟩)
  | some .directory => .error (.system ⟨Errno.isDirectory, path.text⟩)
  | some (.file _) => return { files with nodes := files.nodes.erase place }

/-- The order of texts by code points. -/
private def inOrder (a b : String × Option Bytes) : Bool := a.1 ≤ b.1

/-- Whether a place lies below a directory. -/
def isBelow (place directory : Place) : Bool :=
  directory.isPrefixOf place && place ≠ directory

/-- The files below the working directory by path, in order, and with a slash
at the end the directories that hold nothing. -/
def listing (files : FileSystem) : List (String × Option Bytes) :=
  let base := files.workingDirectory
  let shown := files.nodes.filterMap fun entry =>
    if isBelow entry.1 base then
      let path := "/".intercalate (entry.1.drop base.length)
      match entry.2 with
      | .file content => some (path, some content)
      | .directory =>
        if files.nodes.any fun other => isBelow other.1 entry.1 then none
        else some (path ++ "/", none)
    else none
  shown.mergeSort inOrder

end FileSystem
end Regen
