import Regen.Proofs.FilesKept
import Regen.Update

/-! What an update can come to. It stops before anything is changed, it stops at
the backup, or the backup is made and the new text written; there is no fourth
way, as a file that has been read can be written back. -/
namespace Regen

namespace Backup
open FileSystem

/-- A backup as it is made: directories first, in `made`, and then the content at
the place that the target leads to by then. -/
structure Made (files made kept : FileSystem) (target : Path) (place : Place) (content : Bytes) :
    Prop where
  missed : files.isThere target = .ok false
  grows : Extends files made
  rooted : files.Rooted → made.Rooted
  led : made.locate target = .ok place
  free : made.node? place ≠ some .directory
  put : kept = made.put place (.file content)

section Keep
variable {files made kept left : FileSystem} {directory target : Path} {path : String} {place : Place}
  {content : Bytes} {fault : FileFault}

theorem keep_ok (done : keep files directory path content = ⟨kept, none⟩) :
    ∃ made place, Made files made kept (Backup.target directory path) place content := by
  unfold keep at done
  dsimp only at done
  split at done
  · cases done
  · cases done
  · rename_i missed
    split at done
    · rename_i made parents
      have grown := rooted_ensureDirectories files (Backup.target directory path).parent
        (Backup.target directory path).parent.parts.length
      rw [parents] at grown
      cases last : made.write (Backup.target directory path) content with
      | error fault => simp [last, Change.ofExcept] at done
      | ok written =>
        simp only [last, Change.ofExcept, Change.mk.injEq, and_true] at done
        obtain ⟨place, led, free, put⟩ := write_ok last
        exact ⟨made, place, missed, grown.1, grown.2, led, free, done ▸ put⟩
    · rename_i failed none
      exact absurd (done ▸ rfl) (none kept)

/-- A backup that fails leaves no more behind than new directories. -/
theorem keep_error (failed : keep files directory path content = ⟨left, some fault⟩) :
    Extends files left ∧ (files.Rooted → left.Rooted) := by
  unfold keep at failed
  dsimp only at failed
  split at failed
  · cases failed
    exact ⟨.refl files, id⟩
  · cases failed
    exact ⟨.refl files, id⟩
  · have grown := rooted_ensureDirectories files (Backup.target directory path).parent
      (Backup.target directory path).parent.parts.length
    split at failed
    · rename_i made parents
      rw [parents] at grown
      cases last : made.write (Backup.target directory path) content with
      | error fault =>
        simp only [last, Change.ofExcept, Change.mk.injEq] at failed
        exact failed.1 ▸ grown
      | ok written => simp [last, Change.ofExcept] at failed
    · rw [failed] at grown
      exact grown

theorem keep_of_there (there : files.isThere (Backup.target directory path) = .ok true) :
    keep files directory path content =
      ⟨files, some (.system ⟨Errno.existing, (Backup.target directory path).text⟩)⟩ := by
  simp [keep, there]

theorem Made.keepsDirectories (backup : Made files made kept target place content) :
    KeepsDirectories files kept := by
  rw [backup.put]
  exact backup.grows.keepsDirectories.trans (keepsDirectories_put backup.free)

theorem Made.rooted_kept (backup : Made files made kept target place content)
    (rooted : files.Rooted) : kept.Rooted := by
  rw [backup.put]
  exact (backup.rooted rooted).put backup.led backup.free

/-- The backup is where its target leads. -/
theorem Made.led_kept (backup : Made files made kept target place content) :
    kept.locate target = .ok place := by
  rw [backup.put]
  exact locate_of_keepsDirectories (keepsDirectories_put backup.free) backup.led

theorem Made.below (backup : Made files made kept target place content) : place ≠ [] := by
  rintro rfl
  exact backup.free (node?_nil made)

theorem Made.node?_kept (backup : Made files made kept target place content) :
    kept.node? place = some (.file content) := by
  rw [backup.put, node?_put_self backup.below]

/-- Nothing that was there is changed by a backup, but for a file that its target
came to lead to. -/
theorem Made.keeps_other (backup : Made files made kept target place content) {other : Place}
    {node : FileSystem.Node} (different : place ≠ other) (there : files.node? other = some node) :
    kept.node? other = some node := by
  rw [backup.put, node?_put_of_ne different]
  exact backup.grows.nodes other node there

/-- A backup lies where nothing was, provided that every way up its target takes
was there when it was tried. -/
theorem Made.absent (backup : Made files made kept target place content) (rooted : files.Rooted)
    (climbs : CanClimb files target) : files.node? place = none :=
  absent_of_not_there rooted backup.grows.keepsDirectories climbs backup.missed backup.led

end Keep
end Backup

namespace Pipeline
open FileSystem

/-- The files once the old content of a file has been kept, if that is wanted. -/
inductive BackedUp (pipeline : Pipeline) (files : FileSystem) (path : String) (old : Bytes) :
    FileSystem → Prop
  | unwanted : pipeline.backups = none → BackedUp pipeline files path old files
  | made {directory : Path} {kept : FileSystem} : pipeline.backups = some directory →
    Backup.keep files directory path old = ⟨kept, none⟩ → BackedUp pipeline files path old kept

/-- The ways in which an update can end, and the files it leaves. -/
inductive Ends (pipeline : Pipeline) (files : FileSystem) (path : String) :
    FileSystem → Except Halt Text → Prop
  | refused {halt : Halt} : (pipeline.regenerate files path).outcome = .error halt →
    Ends pipeline files path files (.error halt)
  | unkept {old : Bytes} {output : Text} {directory : Path} {left : FileSystem} {fault : FileFault} :
    (pipeline.regenerate files path).outcome = .ok (old, output) →
    pipeline.backups = some directory →
    Backup.keep files directory path old = ⟨left, some fault⟩ →
    Ends pipeline files path left (.error (fault.toHalt (faultyPath path fault)))
  | written {old : Bytes} {output : Text} {kept : FileSystem} {place : Place} :
    (pipeline.regenerate files path).outcome = .ok (old, output) →
    BackedUp pipeline files path old kept →
    files.locate (Path.ofString path) = .ok place →
    files.node? place = some (.file old) →
    Ends pipeline files path (kept.put place (.file (Utf8.encode output))) (.ok output)

section Ends
variable {pipeline : Pipeline} {files kept : FileSystem} {path : String} {old : Bytes} {output : Text}

/-- What is written comes from the text of the file itself. -/
theorem regenerate_ok (done : (pipeline.regenerate files path).outcome = .ok (old, output)) :
    files.read (Path.ofString path) = .ok old ∧
      ∃ text, Utf8.decode old = .ok text ∧
        (pipeline.transform (some path) text).outcome = .ok output := by
  unfold regenerate at done
  obtain ⟨_, -, done⟩ := Run.bind_eq_ok_iff.mp done
  obtain ⟨bytes, read, done⟩ := Run.bind_eq_ok_iff.mp done
  obtain ⟨text, decoded, done⟩ := Run.bind_eq_ok_iff.mp done
  obtain ⟨new, transformed, same⟩ := Run.bind_eq_ok_iff.mp done
  cases same
  rw [Run.outcome_ofExcept, mapError_eq_ok_iff] at read decoded
  exact ⟨read, text, decoded, transformed⟩

theorem BackedUp.keep_of_wanted {directory : Path} (backup : BackedUp pipeline files path old kept)
    (wanted : pipeline.backups = some directory) :
    Backup.keep files directory path old = ⟨kept, none⟩ := by
  cases backup with
  | unwanted none =>
    rw [none] at wanted
    cases wanted
  | made wanted' done =>
    rw [wanted] at wanted'
    cases wanted'
    exact done

theorem BackedUp.keepsDirectories (backup : BackedUp pipeline files path old kept) :
    KeepsDirectories files kept := by
  cases backup with
  | unwanted => exact (Extends.refl files).keepsDirectories
  | made _ done =>
    obtain ⟨made, place, backup⟩ := Backup.keep_ok done
    exact backup.keepsDirectories

/-- A place that holds the old content of the file holds it, or a backup of it,
when the new one is to be written. -/
theorem BackedUp.node?_kept (backup : BackedUp pipeline files path old kept) {place : Place}
    (held : files.node? place = some (.file old)) : kept.node? place = some (.file old) := by
  cases backup with
  | unwanted => exact held
  | made _ done =>
    obtain ⟨made, target, backup⟩ := Backup.keep_ok done
    by_cases same : target = place
    · exact same ▸ backup.node?_kept
    · exact backup.keeps_other same held

theorem update_of_error {halt : Halt}
    (refused : (pipeline.regenerate files path).outcome = .error halt) :
    (pipeline.update files path).files = files ∧
      (pipeline.update files path).run.outcome = .error halt := by
  unfold update
  simp only [refused, and_self]

theorem update_of_ok (generated : (pipeline.regenerate files path).outcome = .ok (old, output))
    (backup : (pipeline.backUp files path old).2.outcome = .ok ())
    (wrote : (pipeline.backUp files path old).1.write (Path.ofString path) (Utf8.encode output) =
      .ok kept) :
    (pipeline.update files path).files = kept ∧
      (pipeline.update files path).run.outcome = .ok output := by
  unfold update
  simp only [generated, backup, wrote, and_self]

theorem update_of_unkept {halt : Halt}
    (generated : (pipeline.regenerate files path).outcome = .ok (old, output))
    (backup : (pipeline.backUp files path old).2.outcome = .error halt) :
    (pipeline.update files path).files = (pipeline.backUp files path old).1 ∧
      (pipeline.update files path).run.outcome = .error halt := by
  unfold update
  simp only [generated, backup, and_self]

theorem BackedUp.backUp (backup : BackedUp pipeline files path old kept) :
    (pipeline.backUp files path old).1 = kept ∧ (pipeline.backUp files path old).2.outcome = .ok () := by
  cases backup with
  | unwanted none => simp [Pipeline.backUp, none]
  | made wanted done => simp [Pipeline.backUp, wanted, done]

theorem update_of_backedUp (generated : (pipeline.regenerate files path).outcome = .ok (old, output))
    (backup : BackedUp pipeline files path old kept) :
    Ends pipeline files path (pipeline.update files path).files
      (pipeline.update files path).run.outcome := by
  obtain ⟨place, led, held⟩ := read_eq_ok_iff.mp (regenerate_ok generated).1
  obtain ⟨same, ended⟩ := backup.backUp
  have wrote : kept.write (Path.ofString path) (Utf8.encode output) =
      .ok (kept.put place (.file (Utf8.encode output))) := by
    refine write_eq_ok (locate_of_keepsDirectories backup.keepsDirectories led) ?_
    simp [backup.node?_kept held]
  obtain ⟨left, outcome⟩ := update_of_ok generated ended (by rw [same, wrote])
  rw [left, outcome]
  exact .written generated backup led held

theorem update_ends (pipeline : Pipeline) (files : FileSystem) (path : String) :
    Ends pipeline files path (pipeline.update files path).files
      (pipeline.update files path).run.outcome := by
  cases generated : (pipeline.regenerate files path).outcome with
  | error halt =>
    obtain ⟨same, ended⟩ := update_of_error generated
    rw [same, ended]
    exact .refused generated
  | ok made =>
    obtain ⟨old, output⟩ := made
    cases wanted : pipeline.backups with
    | none => exact update_of_backedUp generated (.unwanted wanted)
    | some directory =>
      cases kept : Backup.keep files directory path old with
      | mk left fault =>
        cases fault with
        | none => exact update_of_backedUp generated (.made wanted kept)
        | some fault =>
          have ended : pipeline.backUp files path old =
              (left, .fail (fault.toHalt (faultyPath path fault))) := by
            simp [Pipeline.backUp, wanted, kept]
          obtain ⟨same, outcome⟩ := update_of_unkept generated (by rw [ended, Run.outcome_fail])
          rw [same, outcome, ended]
          exact .unkept generated wanted kept

end Ends
end Pipeline
end Regen
