import Regen.FileSystem

/-! Backups. Before a file is changed its content is kept below the directory of
the run, at the path of the file with any root taken off; nothing that is there
already is replaced. -/
namespace Regen.Backup

/-- Where the backup of a file goes. -/
def target (directory : Path) (path : String) : Path :=
  directory.join (Path.ofString path).relative

/-- Keeps the content of a file below a directory. -/
def keep (files : FileSystem) (directory : Path) (path : String) (content : Bytes) : Change :=
  let place := target directory path
  match files.isThere place with
  | .error fault => ⟨files, some fault⟩
  | .ok true => ⟨files, some (.system ⟨Errno.existing, place.text⟩)⟩
  | .ok false =>
    match files.ensureDirectories place.parent place.parent.parts.length with
    | ⟨made, none⟩ => .ofExcept made (made.write place content)
    | failed => failed

/-- A backup lies below the directory of its run. -/
theorem target_parts (directory : Path) (path : String) :
    (target directory path).parts = directory.parts ++ (Path.ofString path).parts := by
  simp [target, Path.join_relative]

end Regen.Backup
