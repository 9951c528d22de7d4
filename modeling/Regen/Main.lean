import Regen.Command
import Std.Time.Zoned

/-! The program. What a run may look at is taken from the disk into a file system
value, the command runs on that, and what it changed is put back. The formats of
configuration files are not read here beyond their comments, and code is not run. -/
namespace Regen.Program

/-- What lies at a path of the disk. A directory shows itself by the error of
reading it as a file. -/
def nodeOnDisk? (path : String) : IO (Option FileSystem.Node) := do
  try
    let content ← IO.FS.readBinFile path
    return some (.file content.toList)
  catch error =>
    match error with
    | .inappropriateType _ 21 _ => return some .directory
    | _ => return none

/-- The place that names lead to from another. -/
def placeFrom (start : Place) (names : List String) : Place :=
  names.foldl (fun place name => if name = ".." then place.dropLast else place ++ [name]) start

/-- Takes what lies at a path, and at the directories on the way to it. -/
def takePath (files : FileSystem) (path : Path) : IO FileSystem := do
  let start := if path.isAbsolute then [] else files.workingDirectory
  let mut files := files
  for count in List.range (path.parts.length + 1) do
    let names := path.parts.take count
    if let some node ← nodeOnDisk? (Path.text { path with parts := names }) then
      files := files.put (placeFrom start names) node
  return files

/-- Takes what a run with options may look at. -/
def takeFiles (settings : Settings) (options : Options) : IO FileSystem := do
  let here := Path.ofString (toString (← IO.currentDir))
  let named := options.paths ++ options.config.toList ++
    [settings.projectFile, settings.metadataFile, options.backupDirectory.getD settings.backupRoot]
  let empty : FileSystem := ⟨[], here.parts⟩
  let withHere ← takePath empty here
  named.foldlM (fun files path => takePath files (Path.ofString path)) withHere

/-- Puts back what differs between two file systems. -/
def putBack (before after : FileSystem) : IO Unit := do
  for (place, node) in after.nodes do
    if before.node? place ≠ some node then
      let path := "/" ++ "/".intercalate place
      match node with
      | .directory => IO.FS.createDirAll path
      | .file content => IO.FS.writeBinFile path ⟨content.toArray⟩

/-- The moment at which the run begins, in universal time. -/
def readClock : IO Moment := do
  let sinceEpoch := (← Std.Time.Timestamp.now).toDurationSinceUnixEpoch
  let ⟨date, time⟩ := Std.Time.PlainDateTime.ofWallTime (Std.Time.WallTime.ofDuration sinceEpoch)
  return ⟨Int.toNat date.year, date.month.val.toNat, date.day.val.toNat, time.hour.val.toNat,
    time.minute.val.toNat, time.second.val.toNat, time.nanosecond.val.toNat / 1000⟩

/-- Whether a configuration file declares nothing: its lines are blank or
comments. -/
def isBare (text : Text) : Bool :=
  (Text.lines text).all fun line =>
    match Text.strip line with
    | [] => true
    | c :: _ => c == '#'

/-- What a run finds around it. -/
def surroundings (settings : Settings) (files : FileSystem) (now : Moment) : Surroundings where
  settings := settings
  limits := ⟨900, 200⟩
  files := files
  now := now
  installed := [⟨"readmix", "1.0.0"⟩]
  evaluate := fun _ => .raised "NotImplementedError: code is not run"
  readProject := fun text => if isBare text then .ok .none else .error .malformed
  readMetadata := fun text =>
    if isBare text then .ok (.table []) else .error ⟨.unreadableMetadata, "Metadata is not read"⟩

end Regen.Program

open Regen in
/-- Runs the command line. -/
def main (words : List String) : IO UInt32 := do
  let options := (Options.read words).toOption.getD {}
  let files ← Program.takeFiles Settings.standard options
  let around := Program.surroundings Settings.standard files (← Program.readClock)
  let ended := Command.run around (.flat []) words
  Program.putBack files ended.files
  IO.print ended.output
  for line in ended.log ++ ended.complaints do
    IO.eprintln line
  match ended.status with
  | .ok status => return UInt32.ofNat (status.toNat % 256)
  | .error failure =>
    IO.eprintln failure.message
    return 1
