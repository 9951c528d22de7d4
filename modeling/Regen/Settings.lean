import Regen.Value.Key

/-! Settings of a run: how markers are recognised, what documents without a
file are called, and where backups and project files are. The limits of a run
are no settings; they come from where it takes place. -/
namespace Regen

/-- How deep blocks can go: how many may be open at a time while they are matched,
and how many levels of them can be rendered inside one another. -/
structure Limits where
  nesting : Nat
  levels : Nat
deriving DecidableEq, Repr

structure Settings where
  /-- The word after the comment opener that makes a comment a marker. -/
  markerKeyword : String := "rdmx"
  /-- The namespace of actions written without one. -/
  defaultNamespace : String := "rdmx"
  /-- The namespace of such actions where the default one is empty. -/
  namespaceBehind : String := "rdmx"
  /-- What a document that comes from no file is called in reports. -/
  unnamedFile : String := "nofile"
  /-- Whether files are backed up unless a run says otherwise. -/
  backupEnabled : Bool := true
  /-- The directory that receives the backups of all runs. -/
  backupRoot : String := "/tmp/readmix-backups"
  /-- The date pattern naming the backup directory of one run. -/
  stampFormat : String := "readmix-backup-%Y-%m-%d-%H-%M-%S-%f"
  /-- The file in which a project declares generators, scopes and variables. -/
  projectFile : String := ".readmix.yaml"
  /-- The file describing the project's package. -/
  metadataFile : String := "pyproject.toml"
deriving DecidableEq, Repr

namespace Settings

/-- The settings in force when nothing is set. -/
def standard : Settings := {}

/-- The two spellings of the comment opener, the one with three dashes first. -/
def openers (settings : Settings) : List Text :=
  [("<!--- " ++ settings.markerKeyword ++ " ").toList,
    ("<!-- " ++ settings.markerKeyword ++ " ").toList]

/-- The namespace of `:action`; an empty setting gives way to the one behind it. -/
def actionNamespace (settings : Settings) : String :=
  if settings.defaultNamespace = "" then settings.namespaceBehind else settings.defaultNamespace

/-- The settings with nothing behind them, so that an empty default namespace is
the namespace of `:action` too. -/
def alone (settings : Settings) : Settings :=
  { settings with namespaceBehind := settings.defaultNamespace }

/-- The words that switch a setting on, and those that switch it off. -/
def switchWords : List String × List String :=
  (["1", "true", "t", "yes", "y", "on"], ["0", "false", "f", "no", "n", "off"])

/-- A value as a switch: a truth value, the numbers one and zero, or one of
the words for them in any case. -/
def switch? : Value → Option Bool
  | .text s =>
    let word := String.ofList (s.toList.map Char.toLower)
    if switchWords.1.contains word then some true
    else if switchWords.2.contains word then some false
    else none
  | value =>
    if value.sameNumber (.int 1) then some true
    else if value.sameNumber (.int 0) then some false
    else none

/-- The settings with one field set, unless there is no such field or it does
not take the value. -/
def withField? (settings : Settings) (field : String) (value : Value) : Option Settings :=
  match field, value with
  | "marker_keyword", .text s => some { settings with markerKeyword := s }
  | "default_namespace", .text s => some { settings with defaultNamespace := s }
  | "nofile_name", .text s => some { settings with unnamedFile := s }
  | "backup_enabled", value =>
    (switch? value).map fun enabled => { settings with backupEnabled := enabled }
  | "backup_root", .text s => some { settings with backupRoot := s }
  | "backup_stamp_format", .text s => some { settings with stampFormat := s }
  | "project_config_file", .text s => some { settings with projectFile := s }
  | "pyproject_file", .text s => some { settings with metadataFile := s }
  | _, _ => none

/-- The settings with the given fields set, or the names of the fields at
fault, in order. -/
def withFields (settings : Settings) (fields : Entries) : Except (List String) Settings :=
  let faulty := fields.filter fun field => (settings.withField? field.1 field.2).isNone
  if faulty.isEmpty then
    .ok (fields.foldl (fun settings field => (settings.withField? field.1 field.2).getD settings) settings)
  else .error ((faulty.map Prod.fst).mergeSort (· ≤ ·))

end Settings
end Regen
