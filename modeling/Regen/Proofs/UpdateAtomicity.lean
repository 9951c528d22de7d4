import Regen.Proofs.Regeneration
import Regen.Proofs.UpdateSteps

/-! An update changes its file as a whole or not at all. Whatever fails before
the backup leaves the file system as it was, a backup that fails leaves new
directories behind and nothing else, and an update that ends well leaves the new
text in the file and the old one in the backup. -/
namespace Regen

namespace Backup
open FileSystem

/-- A path leads through a file where a directory would have to be. -/
def LeadsThroughFile (files : FileSystem) (path : Path) : Prop :=
  ∃ before name after place content, path.parts = before ++ name :: after ∧
    files.walk (files.origin path) before = .ok place ∧
    files.node? place = some (.file content)

/-- There is no place for a backup: its target is there already, or something
above it is a file. -/
def Barred (files : FileSystem) (target : Path) : Prop :=
  files.isThere target = .ok true ∨ LeadsThroughFile files target

theorem keep_of_barred {files kept : FileSystem} {directory : Path} {path : String} {content : Bytes}
    (barred : Barred files (target directory path)) :
    keep files directory path content ≠ ⟨kept, none⟩ := by
  intro done
  obtain ⟨made, place, backup⟩ := keep_ok done
  rcases barred with there | ⟨before, name, after, blocked, inside, split, led, file⟩
  · have missed := backup.missed
    rw [there] at missed
    cases missed
  · obtain ⟨-, whole⟩ := locate_eq_ok_iff.mp backup.led
    rw [split, origin_of_base backup.grows.base] at whole
    obtain ⟨between, first, second⟩ := walk_append_eq_ok_iff.mp whole
    have same : between = blocked := by
      rw [walk_of_keepsDirectories backup.grows.keepsDirectories led] at first
      exact (Except.ok.inj first).symm
    have directory := (walk_cons_eq_ok_iff.mp second).1
    rw [same, backup.grows.nodes _ _ file] at directory
    cases directory

end Backup

namespace Pipeline
open FileSystem

section Atomicity
variable {pipeline : Pipeline} {files left : FileSystem} {path : String} {output : Text}

theorem Ends.extends_of_error {halt : Halt} (ends : Ends pipeline files path left (.error halt)) :
    Extends files left ∧ left.read (Path.ofString path) = files.read (Path.ofString path) := by
  cases ends with
  | refused _ => exact ⟨.refl files, rfl⟩
  | unkept generated _ failed =>
    have grows := (Backup.keep_error failed).1
    obtain ⟨read, -⟩ := regenerate_ok generated
    obtain ⟨place, led, held⟩ := read_eq_ok_iff.mp read
    refine ⟨grows, ?_⟩
    rw [read]
    exact read_eq_ok_iff.mpr
      ⟨place, locate_of_keepsDirectories grows.keepsDirectories led, grows.nodes _ _ held⟩

/-- The file has the new text, whatever has been kept where. -/
theorem read_of_written {old : Bytes} {kept : FileSystem} {place : Place}
    (backup : BackedUp pipeline files path old kept)
    (led : files.locate (Path.ofString path) = .ok place)
    (held : files.node? place = some (.file old)) :
    (kept.put place (.file (Utf8.encode output))).read (Path.ofString path) =
      .ok (Utf8.encode output) := by
  have free : kept.node? place ≠ some .directory := by simp [backup.node?_kept held]
  have below : place ≠ [] := by
    rintro rfl
    exact free (node?_nil kept)
  have led' := locate_of_keepsDirectories backup.keepsDirectories led
  exact read_eq_ok_iff.mpr
    ⟨place, locate_of_keepsDirectories (keepsDirectories_put free) led', node?_put_self below⟩

/-- The target of the backup still leads to the backup once the file is written,
and there it holds what the file held unless it is that file. -/
theorem backup_of_written {directory : Path} {old : Bytes} {kept : FileSystem} {place : Place}
    (output : Text) (done : Backup.keep files directory path old = ⟨kept, none⟩)
    (held : files.node? place = some (.file old)) :
    ∃ made backup, Backup.Made files made kept (Backup.target directory path) backup old ∧
      (kept.put place (.file (Utf8.encode output))).locate (Backup.target directory path) = .ok backup ∧
      (backup ≠ place →
        (kept.put place (.file (Utf8.encode output))).node? backup = some (.file old)) := by
  obtain ⟨made, backup, kept'⟩ := Backup.keep_ok done
  refine ⟨made, backup, kept', ?_, fun different => ?_⟩
  · have free : kept.node? place ≠ some .directory := by
      by_cases same : backup = place
      · simp [← same, kept'.node?_kept]
      · simp [kept'.keeps_other same held]
    exact locate_of_keepsDirectories (keepsDirectories_put free) kept'.led_kept
  · rw [node?_put_of_ne (Ne.symm different), kept'.node?_kept]

end Atomicity

/-- An update that fails leaves the file as it was, and everything else too unless
it is the backup that failed, which may leave directories behind. An update that
ends well has made the text of the file anew, written it, and kept the old one
at the target of the backup; where that target takes a way up that is not there
yet, it may turn out to be the file itself. -/
theorem update_all_or_nothing (pipeline : Pipeline) (files : FileSystem) (path : String) :
    (∀ halt, (pipeline.update files path).run.outcome = .error halt →
      Extends files (pipeline.update files path).files ∧
      (pipeline.update files path).files.read (Path.ofString path) =
        files.read (Path.ofString path)) ∧
    (∀ halt, (pipeline.regenerate files path).outcome = .error halt →
      (pipeline.update files path).run.outcome = .error halt ∧
      (pipeline.update files path).files = files) ∧
    (∀ directory, pipeline.backups = some directory →
      Backup.Barred files (Backup.target directory path) →
      ∃ halt, (pipeline.update files path).run.outcome = .error halt) ∧
    (∀ output, (pipeline.update files path).run.outcome = .ok output →
      ∃ old text, files.read (Path.ofString path) = .ok old ∧ Utf8.decode old = .ok text ∧
        (pipeline.transform (some path) text).outcome = .ok output ∧
        (pipeline.update files path).files.read (Path.ofString path) = .ok (Utf8.encode output) ∧
        ∀ directory, pipeline.backups = some directory →
          ((pipeline.update files path).files.locate (Backup.target directory path) ≠
              files.locate (Path.ofString path) ∨
            files.Rooted ∧ CanClimb files (Backup.target directory path)) →
          (pipeline.update files path).files.read (Backup.target directory path) = .ok old) := by
  have ends := update_ends pipeline files path
  refine ⟨fun halt failed => ?_, fun halt refused => (update_of_error refused).symm, ?_, ?_⟩
  · rw [failed] at ends
    exact ends.extends_of_error
  · intro directory wanted barred
    generalize (pipeline.update files path).files = left at ends
    cases ended : (pipeline.update files path).run.outcome with
    | error halt => exact ⟨halt, rfl⟩
    | ok output =>
      rw [ended] at ends
      cases ends with
      | written _ backup _ _ =>
        exact absurd (backup.keep_of_wanted wanted) (Backup.keep_of_barred barred)
  · intro output ended
    rw [ended] at ends
    generalize (pipeline.update files path).files = left at ends ⊢
    cases ends with
    | @written old _ kept place generated backup led held =>
      obtain ⟨read, text, decoded, transformed⟩ := regenerate_ok generated
      refine ⟨old, text, read, decoded, transformed, read_of_written backup led held, ?_⟩
      intro directory wanted apart
      obtain ⟨made, target, backup, leads, holds⟩ :=
        backup_of_written output (backup.keep_of_wanted wanted) held
      have different : target ≠ place := by
        rintro rfl
        rcases apart with elsewhere | ⟨rooted, climbs⟩
        · exact elsewhere (leads.trans led.symm)
        · have absent := backup.absent rooted climbs
          rw [held] at absent
          cases absent
      exact read_eq_ok_iff.mpr ⟨target, leads, holds different⟩

/-- A pipeline that keeps backups below a directory. -/
def keepingIn (directory : Path) : Pipeline := ⟨.standard, ⟨1, 1⟩, builtinBindings, some directory⟩

def staleText : Text :=
  "<!-- rdmx :badges -->".toList ++ "old".toList ++ "<!-- rdmx /:badges -->".toList

def freshText : Text := "<!-- rdmx :badges -->".toList ++ "<!-- rdmx /:badges -->".toList

/-- One file in a working directory, with a directory next to it. -/
def smallFiles : FileSystem :=
  ⟨[(["w"], .directory), (["w", "x.md"], .file (Utf8.encode staleText)), (["w", "d"], .directory)],
    ["w"]⟩

theorem rooted_smallFiles : smallFiles.Rooted :=
  rooted_of_entries (by decide) (by decide)

/-- The backup is made where it is wanted, and there is no second one. -/
theorem update_all_or_nothing_small :
    (∃ old, smallFiles.read (Path.ofString "x.md") = .ok old ∧
      ((keepingIn ⟨"", ["bk"]⟩).update smallFiles "x.md").files.read
        (Backup.target ⟨"", ["bk"]⟩ "x.md") = .ok old) ∧
    Backup.Barred smallFiles (Backup.target ⟨"", ["x.md"]⟩ "x.md") ∧
    ∃ halt, ((keepingIn ⟨"", ["x.md"]⟩).update smallFiles "x.md").run.outcome = .error halt := by
  have written : ((keepingIn ⟨"", ["bk"]⟩).update smallFiles "x.md").run.outcome = .ok freshText :=
    ok_of_toOption (by decide +kernel)
  have climbs : CanClimb smallFiles (Backup.target ⟨"", ["bk"]⟩ "x.md") :=
    canClimb_of_not_climbs (by decide +kernel)
  have barred : Backup.Barred smallFiles (Backup.target ⟨"", ["x.md"]⟩ "x.md") :=
    .inr ⟨["x.md"], "x.md", [], ["w", "x.md"], Utf8.encode staleText, by decide +kernel,
      ok_of_toOption (by decide), by decide +kernel⟩
  have ⟨_, _, stops, ends⟩ := update_all_or_nothing (keepingIn ⟨"", ["bk"]⟩) smallFiles "x.md"
  have ⟨_, _, stops', _⟩ := update_all_or_nothing (keepingIn ⟨"", ["x.md"]⟩) smallFiles "x.md"
  obtain ⟨old, _, read, _, _, _, kept⟩ := ends freshText written
  exact ⟨⟨old, read, kept _ rfl (.inr ⟨rooted_smallFiles, climbs⟩)⟩, barred, stops' _ rfl barred⟩

/-- A run directory that goes up from one that is not there yet leads back to the
file itself: the test finds nothing, the backup is written over the file, and the
new text over the backup. -/
theorem backup_lost_in_loop :
    smallFiles.Rooted ∧ (Path.ofString "x.md").climbs = false ∧
    (keepingIn ⟨"", ["bk", ".."]⟩).backups = some ⟨"", ["bk", ".."]⟩ ∧
    ((keepingIn ⟨"", ["bk", ".."]⟩).update smallFiles "x.md").run.outcome = .ok freshText ∧
    smallFiles.read (Path.ofString "x.md") = .ok (Utf8.encode staleText) ∧
    ((keepingIn ⟨"", ["bk", ".."]⟩).update smallFiles "x.md").files.read
      (Backup.target ⟨"", ["bk", ".."]⟩ "x.md") = .ok (Utf8.encode freshText) ∧
    Utf8.encode staleText ≠ Utf8.encode freshText := by
  refine ⟨rooted_smallFiles, by decide +kernel, rfl, ok_of_toOption (by decide +kernel),
    ok_of_toOption (by decide +kernel), ok_of_toOption (by decide +kernel), by decide +kernel⟩

end Pipeline
end Regen
