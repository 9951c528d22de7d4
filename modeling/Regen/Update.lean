import Regen.Pipeline

/-! Updates: a file is replaced by its own text with every block generated anew.
The file is written last, after its old content has been kept, so that whatever
fails before leaves it as it was. -/
namespace Regen

/-- The files after an update, and how it went. -/
structure Updated where
  files : FileSystem
  run : Run Halt Text

namespace Pipeline

/-- The report that a file cannot be read as text. -/
def undecodable (path : String) : Halt :=
  .fault ⟨.file (.text "invalid utf-8 content"), none, some path⟩

/-- The content of a file and its text made anew. -/
def regenerate (pipeline : Pipeline) (files : FileSystem) (path : String) :
    Run Halt (Bytes × Text) :=
  (Run.record (.reading path)).bind fun _ =>
    (Run.ofExcept ((files.read (Path.ofString path)).mapError (FileFault.toHalt path))).bind
      fun old =>
        (Run.ofExcept ((Utf8.decode old).mapError fun _ => undecodable path)).bind fun text =>
          (pipeline.transform (some path) text).bind fun output => .pure (old, output)

/-- The path that a report on a failed backup names. -/
def faultyPath (path : String) : FileFault → String
  | .system error => error.path
  | .nullCharacter => path

/-- Keeps the old content of a file, if backups are wanted. -/
def backUp (pipeline : Pipeline) (files : FileSystem) (path : String) (content : Bytes) :
    FileSystem × Run Halt Unit :=
  match pipeline.backups with
  | none => (files, .record (.backupSkipped path))
  | some directory =>
    match Backup.keep files directory path content with
    | ⟨kept, none⟩ => (kept, .record (.backedUp path (Backup.target directory path).text))
    | ⟨left, some fault⟩ => (left, .fail (fault.toHalt (faultyPath path fault)))

/-- Updates a file. -/
def update (pipeline : Pipeline) (files : FileSystem) (path : String) : Updated :=
  let generated := pipeline.regenerate files path
  match generated.outcome with
  | .error halt => ⟨files, ⟨generated.events, .error halt⟩⟩
  | .ok (old, output) =>
    let (kept, backup) := pipeline.backUp files path old
    let before := generated.events ++ backup.events
    match backup.outcome with
    | .error halt => ⟨kept, ⟨before, .error halt⟩⟩
    | .ok _ =>
      match kept.write (Path.ofString path) (Utf8.encode output) with
      | .error fault => ⟨kept, ⟨before, .error (fault.toHalt path)⟩⟩
      | .ok written => ⟨written, ⟨before ++ [.updated path], .ok output⟩⟩

end Pipeline
end Regen
