import Regen.Builtin
import Regen.FileSystem
import Regen.Moment
import Regen.Settings
import Regen.Text.Utf8

/-! What a run finds around it: settings, files, the time, installed packages,
and what code and the two formats of configuration files mean, which are outside
matters and enter as functions. -/
namespace Regen

/-- Why a text declares no project: it does not parse, or reading it fails in
another way. -/
inductive Unreadable where
  | malformed
  | escape (escape : Escape)
deriving Repr

structure Surroundings where
  settings : Settings
  limits : Limits
  files : FileSystem
  now : Moment
  installed : List Distribution
  evaluate : Evaluator
  /-- The content of a project file. -/
  readProject : Text → Except Unreadable Value
  /-- The content of a package's metadata file. -/
  readMetadata : Text → Except Escape Value

/-- The failure of a file operation, for the caller. -/
def FileFault.toEscape : FileFault → Escape
  | .system error => ⟨.file error.errno, error.message⟩
  | .nullCharacter => ⟨.badValue, "embedded null byte"⟩

/-- The report on a file operation that failed. The name of the error is its
reason; a null character in a path is no error of the system. -/
def FileFault.toHalt (path : String) : FileFault → Halt
  | .system error =>
    let name := Errno.name error.errno
    .fault ⟨.file (.text (if name = "" then error.message else name)), none, some path⟩
  | .nullCharacter => .escape FileFault.nullCharacter.toEscape

/-- The failure of reading bytes as text. -/
def Utf8.Fault.toEscape (fault : Utf8.Fault) : Escape := ⟨.undecodable, fault.message⟩

end Regen
