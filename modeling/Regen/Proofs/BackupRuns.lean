import Regen.Proofs.UpdateAtomicity

/-! Backups over a run of updates. Wherever the ways up that the targets of the
backups take are there in time, a backup lies where nothing was and nothing but
the updated file is written over, so a backup stays as it was made until an
update is asked to change that very file. A way up that a backup makes for
itself breaks this: the test for the target misses what the target leads to. -/
namespace Regen

namespace FileSystem

/-- Whether names never lead above a directory, starting so many names below it. -/
def staysBelow : (depth : Nat) → List String → Bool
  | _, [] => true
  | 0, name :: names => name ≠ ".." && staysBelow 1 names
  | depth + 1, name :: names =>
    if name = ".." then staysBelow depth names else staysBelow (depth + 2) names

section Below
variable {files : FileSystem} {root inner place : Place} {names : List String}

theorem prefix_of_staysBelow (stays : staysBelow inner.length names = true)
    (led : files.walk (root ++ inner) names = .ok place) : root <+: place := by
  induction names generalizing inner with
  | nil =>
    cases led
    exact List.prefix_append root inner
  | cons name names ih =>
    obtain ⟨-, -, led⟩ := walk_cons_eq_ok_iff.mp led
    by_cases up : name = ".."
    · rcases List.eq_nil_or_concat inner with rfl | ⟨above, last, rfl⟩
      · simp [staysBelow, up] at stays
      · rw [List.concat_eq_append] at stays led
        have shorter : enter (root ++ (above ++ [last])) name = root ++ above := by
          rw [enter, if_pos up, ← List.append_assoc, List.dropLast_concat]
        rw [shorter] at led
        rw [List.length_append, List.length_singleton, staysBelow, if_pos up] at stays
        exact ih stays led
    · have longer : enter (root ++ inner) name = root ++ (inner ++ [name]) := by
        rw [enter, if_neg up, List.append_assoc]
      rw [longer] at led
      refine ih ?_ led
      cases inner with
      | nil => simpa [staysBelow, up] using stays
      | cons first inner => simpa [staysBelow, up] using stays

/-- The names of a path to a file that never leave where they start end below it. -/
theorem isBelow_of_staysBelow (stays : staysBelow 0 names = true)
    (led : files.walk root names = .ok place) (free : files.node? place ≠ some .directory)
    (named : names ≠ []) : isBelow place root = true := by
  have inside : root <+: place := by
    refine @prefix_of_staysBelow files root [] place names stays ?_
    rwa [List.append_nil]
  have other : place ≠ root := by
    rintro rfl
    cases names with
    | nil => exact named rfl
    | cons name names => exact free (walk_cons_eq_ok_iff.mp led).1
  simp [isBelow, inside, other]

end Below
end FileSystem

namespace Pipeline
open FileSystem

/-- The files after updates one after the other, whether or not they end well. -/
def updateAll (pipeline : Pipeline) (files : FileSystem) (paths : List String) : FileSystem :=
  paths.foldl (fun now path => (pipeline.update now path).files) files

/-- Something holds of the files and the path of each update when its turn comes. -/
def AtEach (pipeline : Pipeline) (holds : FileSystem → String → Prop) :
    FileSystem → List String → Prop
  | _, [] => True
  | now, path :: more => holds now path ∧ AtEach pipeline holds (pipeline.update now path).files more

section Step
variable {pipeline : Pipeline} {files kept left : FileSystem} {path : String} {old : Bytes}
  {outcome : Except Halt Text}

theorem BackedUp.rooted (backup : BackedUp pipeline files path old kept) (rooted : files.Rooted) :
    kept.Rooted := by
  cases backup with
  | unwanted _ => exact rooted
  | made _ done =>
    obtain ⟨made, place, backup⟩ := Backup.keep_ok done
    exact backup.rooted_kept rooted

theorem Ends.rooted (ends : Ends pipeline files path left outcome) (rooted : files.Rooted) :
    left.Rooted := by
  cases ends with
  | refused _ => exact rooted
  | unkept _ _ failed => exact (Backup.keep_error failed).2 rooted
  | written _ backup led held =>
    have free := backup.node?_kept held
    have led' := locate_of_keepsDirectories backup.keepsDirectories led
    exact (backup.rooted rooted).put led' (by simp [free])

theorem Ends.keeps_other (ends : Ends pipeline files path left outcome) (rooted : files.Rooted)
    (climbs : ∀ directory, pipeline.backups = some directory →
      CanClimb files (Backup.target directory path))
    {other : Place} {node : FileSystem.Node} (there : files.node? other = some node)
    (elsewhere : files.locate (Path.ofString path) ≠ .ok other) : left.node? other = some node := by
  cases ends with
  | refused _ => exact there
  | unkept _ _ failed => exact (Backup.keep_error failed).1.nodes other node there
  | @written old _ kept place _ backup led _ =>
    have different : place ≠ other := by
      rintro rfl
      exact elsewhere led
    rw [node?_put_of_ne different]
    cases backup with
    | unwanted _ => exact there
    | made wanted done =>
      obtain ⟨made, target, backup⟩ := Backup.keep_ok done
      have fresh : files.node? target = none := backup.absent rooted (climbs _ wanted)
      have apart : target ≠ other := by
        rintro rfl
        rw [fresh] at there
        cases there
      exact backup.keeps_other apart there

end Step

section Run
variable {pipeline : Pipeline} {files : FileSystem} {paths before after : List String} {path : String}
  {place : Place} {node : FileSystem.Node} {directory : Path}

@[simp] theorem updateAll_nil (pipeline : Pipeline) (files : FileSystem) :
    pipeline.updateAll files [] = files := rfl

@[simp] theorem updateAll_cons (pipeline : Pipeline) (files : FileSystem) (path : String)
    (paths : List String) : pipeline.updateAll files (path :: paths) =
      pipeline.updateAll (pipeline.update files path).files paths := by
  simp only [updateAll, List.foldl_cons]

@[simp] theorem updateAll_append (pipeline : Pipeline) (files : FileSystem) (before after : List String) :
    pipeline.updateAll files (before ++ after) =
      pipeline.updateAll (pipeline.updateAll files before) after := by
  simp only [updateAll, List.foldl_append]

theorem atEach_cons_iff {holds : FileSystem → String → Prop} :
    AtEach pipeline holds files (path :: paths) ↔
      holds files path ∧ AtEach pipeline holds (pipeline.update files path).files paths := Iff.rfl

theorem atEach_append_iff {holds : FileSystem → String → Prop} :
    AtEach pipeline holds files (before ++ after) ↔
      AtEach pipeline holds files before ∧ AtEach pipeline holds (pipeline.updateAll files before) after := by
  induction before generalizing files with
  | nil => exact ⟨fun each => ⟨trivial, each⟩, fun each => each.2⟩
  | cons path before ih =>
    rw [List.cons_append, atEach_cons_iff, atEach_cons_iff, updateAll_cons, ih, and_assoc]

theorem AtEach.and {holds also : FileSystem → String → Prop}
    (each : AtEach pipeline holds files paths) (each' : AtEach pipeline also files paths) :
    AtEach pipeline (fun now path => holds now path ∧ also now path) files paths := by
  induction paths generalizing files with
  | nil => trivial
  | cons path paths ih => exact ⟨⟨each.1, each'.1⟩, ih each.2 each'.2⟩

theorem atEach_of_forall {holds : FileSystem → String → Prop}
    (always : ∀ now, ∀ path ∈ paths, holds now path) : AtEach pipeline holds files paths := by
  induction paths generalizing files with
  | nil => trivial
  | cons path paths ih =>
    exact ⟨always files path List.mem_cons_self,
      ih fun now later member => always now later (List.mem_cons_of_mem path member)⟩

theorem rooted_updateAll (rooted : files.Rooted) : (pipeline.updateAll files paths).Rooted := by
  induction paths generalizing files with
  | nil => exact rooted
  | cons path paths ih =>
    rw [updateAll_cons]
    exact ih ((update_ends pipeline files path).rooted rooted)

theorem climbs_of_wanted (wanted : pipeline.backups = some directory)
    (climbs : CanClimb files (Backup.target directory path)) :
    ∀ other, pipeline.backups = some other → CanClimb files (Backup.target other path) := by
  intro other wanted'
  rw [wanted] at wanted'
  cases wanted'
  exact climbs

/-- What no update is asked to change stays through all of them. -/
theorem node?_updateAll (wanted : pipeline.backups = some directory) (rooted : files.Rooted)
    (each : AtEach pipeline (fun now path => CanClimb now (Backup.target directory path) ∧
      now.locate (Path.ofString path) ≠ .ok place) files paths)
    (there : files.node? place = some node) :
    (pipeline.updateAll files paths).node? place = some node := by
  induction paths generalizing files with
  | nil => exact there
  | cons path paths ih =>
    obtain ⟨⟨climbs, elsewhere⟩, each⟩ := each
    have ends := update_ends pipeline files path
    have kept := ends.keeps_other rooted (climbs_of_wanted wanted climbs) there elsewhere
    rw [updateAll_cons]
    exact ih (ends.rooted rooted) each kept

end Run

/-- An update within a run, seen with the updates that come later: it loses no
file and no backup. -/
structure KeepsBackups (pipeline : Pipeline) (directory : Path) (now : FileSystem) (path : String)
    (later : List String) : Prop where
  /-- Nothing but the updated file is written over. -/
  others : ∀ place node, now.node? place = some node → now.locate (Path.ofString path) ≠ .ok place →
    (pipeline.update now path).files.node? place = some node
  /-- Where something lies at the target, no backup is made and nothing is changed. -/
  refused : ∀ made, (pipeline.regenerate now path).outcome = .ok made →
    now.isThere (Backup.target directory path) = .ok true →
    (pipeline.update now path).files = now ∧ (pipeline.update now path).run.outcome =
      .error (.fault ⟨.file (.text "eexist"), none, some (Backup.target directory path).text⟩)
  /-- The backup is a new file with the old content, inside the directory of the
  run unless the path itself leads out, and keeps it while no update is asked to
  change it. -/
  stays : ∀ output, (pipeline.update now path).run.outcome = .ok output →
    ∃ old place, now.read (Path.ofString path) = .ok old ∧ now.node? place = none ∧
      (pipeline.update now path).files.locate (Backup.target directory path) = .ok place ∧
      (pipeline.update now path).files.node? place = some (.file old) ∧
      (staysBelow 0 (Path.ofString path).parts = true →
        ∃ root, (pipeline.update now path).files.walk
            ((pipeline.update now path).files.origin directory) directory.parts = .ok root ∧
          isBelow place root = true) ∧
      (AtEach pipeline (fun now other => now.locate (Path.ofString other) ≠ .ok place)
          (pipeline.update now path).files later →
        (pipeline.updateAll (pipeline.update now path).files later).node? place = some (.file old))

section Keeps
variable {pipeline : Pipeline} {now : FileSystem} {directory : Path} {path : String}
  {later : List String}

theorem update_of_there (wanted : pipeline.backups = some directory) {made : Bytes × Text}
    (generated : (pipeline.regenerate now path).outcome = .ok made)
    (there : now.isThere (Backup.target directory path) = .ok true) :
    (pipeline.update now path).files = now ∧ (pipeline.update now path).run.outcome =
      .error (.fault ⟨.file (.text "eexist"), none, some (Backup.target directory path).text⟩) := by
  obtain ⟨old, output⟩ := made
  have refused : pipeline.backUp now path old =
      (now, .fail (.fault ⟨.file (.text "eexist"), none, some (Backup.target directory path).text⟩)) := by
    simp only [backUp, wanted, Backup.keep_of_there there]
    rfl
  obtain ⟨left, ended⟩ := update_of_unkept generated (by rw [refused, Run.outcome_fail])
  rw [refused] at left
  exact ⟨left, ended⟩

/-- Wherever the target of a backup can be told for what it leads to, an update
keeps the backups made before it, and its own is kept from then on. -/
theorem keepsBackups_of_canClimb (wanted : pipeline.backups = some directory) (rooted : now.Rooted)
    (climbs : CanClimb now (Backup.target directory path))
    (each : AtEach pipeline (fun now path => CanClimb now (Backup.target directory path))
      (pipeline.update now path).files later) :
    KeepsBackups pipeline directory now path later := by
  have ends := update_ends pipeline now path
  constructor
  case others =>
    intro place node there elsewhere
    exact ends.keeps_other rooted (climbs_of_wanted wanted climbs) there elsewhere
  case refused =>
    intro made generated there
    exact update_of_there wanted generated there
  case stays =>
    intro output ended
    have rooted' := ends.rooted rooted
    rw [ended] at ends
    generalize (pipeline.update now path).files = next at each ends rooted' ⊢
    cases ends with
    | @written old _ kept place generated backup led held =>
      obtain ⟨made, target, backup, leads, holds⟩ :=
        backup_of_written output (backup.keep_of_wanted wanted) held
      have fresh : now.node? target = none := backup.absent rooted climbs
      have different : target ≠ place := by
        rintro rfl
        rw [held] at fresh
        cases fresh
      have content := holds different
      refine ⟨old, target, (regenerate_ok generated).1, fresh, leads, content, fun stays => ?_,
        fun alone => node?_updateAll wanted rooted' (each.and alone) content⟩
      have way := (locate_eq_ok_iff.mp leads).2
      rw [Backup.target_parts] at way
      obtain ⟨root, first, second⟩ := walk_append_eq_ok_iff.mp way
      have named : (Path.ofString path).parts ≠ [] := by
        intro empty
        have start := (locate_eq_ok_iff.mp led).2
        rw [empty] at start
        cases start
        rw [rooted.directory_origin] at held
        cases held
      exact ⟨root, first, isBelow_of_staysBelow stays second (by simp [content]) named⟩

end Keeps

/-- In a run of updates that finds every way up of its targets in place, each update
loses no file and no backup. -/
theorem run_keeps_backups (pipeline : Pipeline) (files : FileSystem) (directory : Path)
    (paths : List String) (wanted : pipeline.backups = some directory) (rooted : files.Rooted)
    (climbs : AtEach pipeline (fun now path => CanClimb now (Backup.target directory path)) files paths) :
    ∀ before path later, paths = before ++ path :: later →
      KeepsBackups pipeline directory (pipeline.updateAll files before) path later := by
  rintro before path later rfl
  obtain ⟨-, climb, each⟩ := atEach_append_iff.mp climbs
  exact keepsBackups_of_canClimb wanted (rooted_updateAll rooted) climb each

/-- A file updated twice under two spellings of its path: the second backup would
go where the first one lies, which is refused, and the first one stays. -/
theorem run_keeps_backups_twice :
    AtEach (keepingIn ⟨"", ["bk"]⟩)
      (fun now path => CanClimb now (Backup.target ⟨"", ["bk"]⟩ path)) smallFiles ["x.md", "./x.md"] ∧
    ((keepingIn ⟨"", ["bk"]⟩).updateAll smallFiles ["x.md", "./x.md"]).node? ["w", "bk", "x.md"] =
      some (.file (Utf8.encode staleText)) ∧
    ((keepingIn ⟨"", ["bk"]⟩).update ((keepingIn ⟨"", ["bk"]⟩).update smallFiles "x.md").files
      "./x.md").run.outcome = .error (.fault ⟨.file (.text "eexist"), none, some "bk/x.md"⟩) := by
  have level : ∀ path ∈ ["x.md", "./x.md"],
      (Backup.target ⟨"", ["bk"]⟩ path).climbs = false := by decide +kernel
  have climbs : AtEach (keepingIn ⟨"", ["bk"]⟩)
      (fun now path => CanClimb now (Backup.target ⟨"", ["bk"]⟩ path)) smallFiles ["x.md", "./x.md"] :=
    atEach_of_forall fun now path member => canClimb_of_not_climbs (level path member)
  have keeps := run_keeps_backups (keepingIn ⟨"", ["bk"]⟩) smallFiles ⟨"", ["bk"]⟩
    ["x.md", "./x.md"] rfl rooted_smallFiles climbs
  have written : ((keepingIn ⟨"", ["bk"]⟩).update smallFiles "x.md").run.outcome = .ok freshText :=
    ok_of_toOption (by decide +kernel)
  obtain ⟨old, place, read, -, leads, -, -, stays⟩ := (keeps [] "x.md" ["./x.md"] rfl).stays _ written
  have held : smallFiles.read (Path.ofString "x.md") = .ok (Utf8.encode staleText) :=
    ok_of_toOption (by decide +kernel)
  have target : ((keepingIn ⟨"", ["bk"]⟩).update smallFiles "x.md").files.locate
      (Backup.target ⟨"", ["bk"]⟩ "x.md") = .ok ["w", "bk", "x.md"] :=
    ok_of_toOption (by decide +kernel)
  have elsewhere : ((keepingIn ⟨"", ["bk"]⟩).update smallFiles "x.md").files.locate
      (Path.ofString "./x.md") = .ok ["w", "x.md"] :=
    ok_of_toOption (by decide +kernel)
  have again : (((keepingIn ⟨"", ["bk"]⟩).regenerate
      ((keepingIn ⟨"", ["bk"]⟩).update smallFiles "x.md").files "./x.md").outcome) =
      .ok (Utf8.encode freshText, freshText) :=
    ok_of_toOption (by decide +kernel)
  have there : ((keepingIn ⟨"", ["bk"]⟩).update smallFiles "x.md").files.isThere
      (Backup.target ⟨"", ["bk"]⟩ "./x.md") = .ok true :=
    ok_of_toOption (by decide +kernel)
  obtain rfl : old = Utf8.encode staleText := Except.ok.inj (read.symm.trans held)
  obtain rfl : place = ["w", "bk", "x.md"] := Except.ok.inj (leads.symm.trans target)
  refine ⟨climbs, stays ⟨fun same => ?_, trivial⟩,
    ((keeps ["x.md"] "./x.md" [] rfl).refused _ again there).2⟩
  exact absurd (Except.ok.inj (elsewhere.symm.trans same)) (by decide)

/-- Two spellings of a path whose second goes up from a directory that the run
has not made yet: the second update misses the backup of the first when it looks
for it, and then writes over it. -/
theorem backup_lost_in_run :
    smallFiles.Rooted ∧ (keepingIn ⟨"", ["bk"]⟩).backups = some ⟨"", ["bk"]⟩ ∧
    ((keepingIn ⟨"", ["bk"]⟩).updateAll smallFiles ["x.md"]).read
      (Backup.target ⟨"", ["bk"]⟩ "x.md") = .ok (Utf8.encode staleText) ∧
    ((keepingIn ⟨"", ["bk"]⟩).updateAll smallFiles ["x.md"]).locate (Path.ofString "d/../x.md") =
      .ok ["w", "x.md"] ∧
    ((keepingIn ⟨"", ["bk"]⟩).updateAll smallFiles ["x.md", "d/../x.md"]).read
      (Backup.target ⟨"", ["bk"]⟩ "x.md") = .ok (Utf8.encode freshText) ∧
    Utf8.encode staleText ≠ Utf8.encode freshText := by
  refine ⟨rooted_smallFiles, rfl, ok_of_toOption (by decide +kernel), ok_of_toOption (by decide +kernel),
    ok_of_toOption (by decide +kernel), by decide +kernel⟩

end Pipeline
end Regen
