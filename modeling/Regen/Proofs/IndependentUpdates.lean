import Mathlib.Data.List.Pairwise
import Regen.Proofs.BackupRuns

/-! Updates without backups, one after the other. An update reads one file and
writes that file or nothing, so where no two paths lead to one file, each update
finds what it would find alone. A run of updates then amounts to amendments that
the files call for at its start, and amendments of different files can be made in
any order. -/
namespace Regen

namespace FileSystem

/-- Files are where files were and directories where directories were; only what
the files hold may differ. -/
structure SamePlaces (before after : FileSystem) : Prop where
  base : after.workingDirectory = before.workingDirectory
  nodes : ∀ place, after.node? place = before.node? place ∨
    ∃ old new, before.node? place = some (.file old) ∧ after.node? place = some (.file new)

/-- A new content for the file at a place. -/
structure Amendment where
  place : Place
  content : Bytes

/-- There is a file to amend. -/
def Amendment.Lands (amendment : Amendment) (files : FileSystem) : Prop :=
  ∃ old, files.node? amendment.place = some (.file old)

/-- The files with one of them amended. -/
def amend (files : FileSystem) (amendment : Amendment) : FileSystem :=
  files.put amendment.place (.file amendment.content)

section SamePlaces
variable {files before between after : FileSystem} {path : Path}

theorem SamePlaces.refl (files : FileSystem) : SamePlaces files files := ⟨rfl, fun _ => .inl rfl⟩

theorem SamePlaces.trans (first : SamePlaces before between) (second : SamePlaces between after) :
    SamePlaces before after := by
  refine ⟨second.base.trans first.base, fun place => ?_⟩
  rcases first.nodes place with same | ⟨old, new, held, holds⟩
  · rw [← same]
    exact second.nodes place
  · rcases second.nodes place with same | ⟨_, last, _, holds'⟩
    · exact .inr ⟨old, new, held, same.trans holds⟩
    · exact .inr ⟨old, last, held, holds'⟩

/-- Names are looked up in directories, so what files hold does not matter. -/
theorem SamePlaces.walk (same : SamePlaces before after) (start : Place) (names : List String) :
    after.walk start names = before.walk start names := by
  induction names generalizing start with
  | nil => rfl
  | cons name names ih =>
    rw [FileSystem.walk, FileSystem.walk]
    rcases same.nodes start with equal | ⟨old, new, held, holds⟩
    · simp only [equal, ih]
    · simp only [held, holds]

theorem SamePlaces.locate (same : SamePlaces before after) (path : Path) :
    after.locate path = before.locate path := by
  simp only [FileSystem.locate, same.base, same.walk]

/-- What is read at a path depends on the place that the path leads to only. -/
theorem SamePlaces.read (same : SamePlaces files before) (same' : SamePlaces files after)
    (agree : ∀ place, files.locate path = .ok place → after.node? place = before.node? place) :
    after.read path = before.read path := by
  rw [FileSystem.read, FileSystem.read, same.locate, same'.locate]
  cases led : files.locate path with
  | error fault => rfl
  | ok place => simp only [bind, Except.bind, agree place led]

end SamePlaces

section Amend
variable {files now : FileSystem} {amendment other : Amendment} {amendments later : List Amendment}
  {place : Place}

theorem node?_amend_self (lands : amendment.Lands files) :
    (files.amend amendment).node? amendment.place = some (.file amendment.content) := by
  obtain ⟨old, held⟩ := lands
  refine node?_put_self ?_
  intro root
  rw [root, node?_nil] at held
  cases held

theorem node?_amend_of_ne (different : amendment.place ≠ place) :
    (files.amend amendment).node? place = files.node? place :=
  node?_put_of_ne different

theorem samePlaces_amend (lands : amendment.Lands files) :
    SamePlaces files (files.amend amendment) := by
  refine ⟨rfl, fun place => ?_⟩
  by_cases same : amendment.place = place
  · obtain ⟨old, held⟩ := lands
    refine .inr ⟨old, amendment.content, same ▸ held, ?_⟩
    rw [← same, node?_amend_self ⟨old, held⟩]
  · exact .inl (node?_amend_of_ne same)

theorem Amendment.Lands.of_samePlaces (lands : amendment.Lands files) (same : SamePlaces files now) :
    amendment.Lands now := by
  obtain ⟨old, held⟩ := lands
  rcases same.nodes amendment.place with equal | ⟨_, new, _, holds⟩
  · exact ⟨old, equal.trans held⟩
  · exact ⟨new, holds⟩

theorem Amendment.Lands.entered (lands : amendment.Lands files) :
    files.nodes.get? amendment.place ≠ none := by
  obtain ⟨old, held⟩ := lands
  rw [node?] at held
  split at held
  · cases held
  · simp [held]

theorem amend_comm (different : amendment.place ≠ other.place) (lands : amendment.Lands files)
    (lands' : other.Lands files) :
    (files.amend amendment).amend other = (files.amend other).amend amendment := by
  simp only [amend, put, Assoc.set_comm _ _ different lands.entered lands'.entered]

theorem samePlaces_amendAll (lands : ∀ each ∈ amendments, Amendment.Lands each files) :
    SamePlaces files (amendments.foldl amend files) := by
  induction amendments generalizing files with
  | nil => exact .refl files
  | cons amendment later ih =>
    have same := samePlaces_amend (lands amendment List.mem_cons_self)
    exact same.trans (ih fun each member =>
      (lands each (List.mem_cons_of_mem amendment member)).of_samePlaces same)

/-- Amendments leave every other place alone. -/
theorem node?_amendAll_of_ne (different : ∀ each ∈ amendments, each.place ≠ place) :
    (amendments.foldl amend files).node? place = files.node? place := by
  induction amendments generalizing files with
  | nil => rfl
  | cons amendment later ih =>
    rw [List.foldl_cons, ih fun each member => different each (List.mem_cons_of_mem amendment member),
      node?_amend_of_ne (different amendment List.mem_cons_self)]

/-- Every amendment stays, as no other one is of the same file. -/
theorem node?_amendAll_of_mem (apart : amendments.Pairwise fun one other => one.place ≠ other.place)
    (lands : ∀ each ∈ amendments, Amendment.Lands each files) (member : amendment ∈ amendments) :
    (amendments.foldl amend files).node? amendment.place = some (.file amendment.content) := by
  induction amendments generalizing files with
  | nil => cases member
  | cons first later ih =>
    obtain ⟨clear, apart⟩ := List.pairwise_cons.mp apart
    have there := lands first List.mem_cons_self
    rw [List.foldl_cons]
    rcases List.mem_cons.mp member with rfl | member
    · rw [node?_amendAll_of_ne fun each member => (clear each member).symm, node?_amend_self there]
    · exact ih apart (fun each member => (lands each (List.mem_cons_of_mem first member)).of_samePlaces
        (samePlaces_amend there)) member

/-- Amendments of different files can be made in any order. -/
theorem amendAll_perm (perm : amendments.Perm later)
    (apart : amendments.Pairwise fun one other => one.place ≠ other.place)
    (lands : ∀ each ∈ amendments, Amendment.Lands each files) :
    amendments.foldl amend files = later.foldl amend files := by
  induction perm generalizing files with
  | nil => rfl
  | cons amendment _ ih =>
    have same := samePlaces_amend (lands amendment List.mem_cons_self)
    exact ih (List.pairwise_cons.mp apart).2 fun each member =>
      (lands each (List.mem_cons_of_mem amendment member)).of_samePlaces same
  | swap first second later =>
    have different := (List.pairwise_cons.mp apart).1 first List.mem_cons_self
    have comm := amend_comm different (lands second List.mem_cons_self)
      (lands first (List.mem_cons_of_mem second List.mem_cons_self))
    simp only [List.foldl_cons, comm]
  | trans first second ih ih' =>
    refine (ih apart lands).trans (ih' ?_ fun each member => lands each (first.mem_iff.mpr member))
    exact (first.pairwise_iff fun different => different.symm).mp apart

end Amend
end FileSystem

namespace Pipeline
open FileSystem

/-- Two paths are different and do not lead to one file. -/
def Apart (files : FileSystem) (path other : String) : Prop :=
  path ≠ other ∧ ∀ place content, files.locate (Path.ofString path) = .ok place →
    files.locate (Path.ofString other) = .ok place → files.node? place ≠ some (.file content)

/-- What the update of a file changes, if it changes anything. -/
def amendment? (pipeline : Pipeline) (files : FileSystem) (path : String) : Option Amendment :=
  match (pipeline.regenerate files path).outcome with
  | .error _ => none
  | .ok (_, output) =>
    match files.locate (Path.ofString path) with
    | .error _ => none
    | .ok place => some ⟨place, Utf8.encode output⟩

/-- Nothing has been written where a path leads to. -/
def Untouched (files now : FileSystem) (path : String) : Prop :=
  ∀ place, files.locate (Path.ofString path) = .ok place → now.node? place = files.node? place

/-- The files may have changed since the start, but not what the paths lead to. -/
structure Undisturbed (files now : FileSystem) (paths : List String) : Prop where
  same : SamePlaces files now
  untouched : ∀ path ∈ paths, Untouched files now path

section Update
variable {pipeline : Pipeline} {files now : FileSystem} {path other : String} {amendment : Amendment}
  {paths : List String}

instance : Std.Symm (Apart files) where
  symm _ _ apart := ⟨apart.1.symm, fun place content led led' => apart.2 place content led' led⟩

/-- An update without a backup either is refused, or writes what it generated. -/
theorem update_unbacked (unwanted : pipeline.backups = none) (files : FileSystem) (path : String) :
    (∃ halt, (pipeline.regenerate files path).outcome = .error halt ∧
      (pipeline.update files path).files = files ∧
      (pipeline.update files path).run.outcome = .error halt) ∨
    ∃ old output place, (pipeline.regenerate files path).outcome = .ok (old, output) ∧
      files.locate (Path.ofString path) = .ok place ∧ files.node? place = some (.file old) ∧
      (pipeline.update files path).files = files.amend ⟨place, Utf8.encode output⟩ ∧
      (pipeline.update files path).run.outcome = .ok output := by
  have ends := update_ends pipeline files path
  generalize (pipeline.update files path).files = left at ends ⊢
  generalize (pipeline.update files path).run.outcome = outcome at ends ⊢
  cases ends with
  | refused halted => exact .inl ⟨_, halted, rfl, rfl⟩
  | unkept _ wanted _ => simp [unwanted] at wanted
  | written generated backup led held =>
    cases backup with
    | made wanted _ => simp [unwanted] at wanted
    | unwanted _ => exact .inr ⟨_, _, _, generated, led, held, rfl, rfl⟩

theorem amendment?_eq_some (found : pipeline.amendment? files path = some amendment) :
    files.locate (Path.ofString path) = .ok amendment.place ∧ amendment.Lands files ∧
      ∃ old output, (pipeline.regenerate files path).outcome = .ok (old, output) ∧
        amendment.content = Utf8.encode output := by
  cases generated : (pipeline.regenerate files path).outcome with
  | error halt =>
    unfold amendment? at found
    simp only [generated] at found
    cases found
  | ok made =>
    obtain ⟨old, output⟩ := made
    obtain ⟨place, led, held⟩ := read_eq_ok_iff.mp (regenerate_ok generated).1
    unfold amendment? at found
    simp only [generated, led] at found
    cases found
    exact ⟨led, ⟨old, held⟩, old, output, rfl, rfl⟩

theorem update_amends (unwanted : pipeline.backups = none) :
    (pipeline.update files path).files = (pipeline.amendment? files path).elim files files.amend := by
  rcases update_unbacked unwanted files path with
    ⟨halt, refused, same, -⟩ | ⟨old, output, place, generated, led, -, written, -⟩
  · unfold amendment?
    simp only [refused, same, Option.elim]
  · unfold amendment?
    simp only [generated, led, written, Option.elim]

/-- An update looks at nothing but its own file. -/
theorem regenerate_of_untouched (same : SamePlaces files now) (untouched : Untouched files now path) :
    pipeline.regenerate now path = pipeline.regenerate files path := by
  simp only [regenerate, (SamePlaces.refl files).read same untouched]

theorem outcome_update_of_untouched (unwanted : pipeline.backups = none) (same : SamePlaces files now)
    (untouched : Untouched files now path) :
    (pipeline.update now path).run.outcome = (pipeline.update files path).run.outcome := by
  have alike : pipeline.regenerate now path = _ := regenerate_of_untouched same untouched
  rcases update_unbacked unwanted now path with
    ⟨halt, refused, -, ended⟩ | ⟨old, output, place, generated, -, -, -, ended⟩
  · rw [ended, (update_of_error (alike ▸ refused)).2]
  · rcases update_unbacked unwanted files path with
      ⟨halt, refused, -, -⟩ | ⟨_, output', _, generated', -, -, -, ended'⟩
    · rw [alike, refused] at generated
      cases generated
    · rw [alike, generated'] at generated
      cases generated
      rw [ended, ended']

theorem amendment?_of_untouched (same : SamePlaces files now) (untouched : Untouched files now path) :
    pipeline.amendment? now path = pipeline.amendment? files path := by
  unfold amendment?
  simp only [regenerate_of_untouched same untouched, same.locate]

theorem update_of_untouched (unwanted : pipeline.backups = none) (same : SamePlaces files now)
    (untouched : Untouched files now path) :
    (pipeline.update now path).files = (pipeline.amendment? files path).elim now now.amend := by
  rw [update_amends unwanted, amendment?_of_untouched same untouched]

theorem samePlaces_update (unwanted : pipeline.backups = none) (same : SamePlaces files now)
    (untouched : Untouched files now path) : SamePlaces files (pipeline.update now path).files := by
  rw [update_of_untouched unwanted same untouched]
  cases found : pipeline.amendment? files path with
  | none => exact same
  | some amendment =>
    exact same.trans (samePlaces_amend ((amendment?_eq_some found).2.1.of_samePlaces same))

/-- No path leads to the file that the update of another one changes. -/
theorem Apart.elsewhere (apart : Apart files path other) {place : Place}
    (found : pipeline.amendment? files path = some amendment)
    (led : files.locate (Path.ofString other) = .ok place) : amendment.place ≠ place := by
  rintro rfl
  obtain ⟨led', ⟨old, held⟩, -⟩ := amendment?_eq_some found
  exact apart.2 amendment.place old led' led held

theorem untouched_update (unwanted : pipeline.backups = none) (same : SamePlaces files now)
    (untouched : Untouched files now path) (apart : Apart files path other)
    (untouched' : Untouched files now other) :
    Untouched files (pipeline.update now path).files other := by
  rw [update_of_untouched unwanted same untouched]
  cases found : pipeline.amendment? files path with
  | none => exact untouched'
  | some amendment =>
    intro place led
    rw [Option.elim, node?_amend_of_ne (apart.elsewhere found led), untouched' place led]

theorem Undisturbed.start (files : FileSystem) (paths : List String) :
    Undisturbed files files paths :=
  ⟨.refl files, fun _ _ _ _ => rfl⟩

theorem Undisturbed.head (undisturbed : Undisturbed files now (path :: paths)) :
    Untouched files now path :=
  undisturbed.untouched path List.mem_cons_self

/-- An update does not disturb those of paths apart from its own. -/
theorem Undisturbed.update (undisturbed : Undisturbed files now (path :: paths))
    (unwanted : pipeline.backups = none) (clear : ∀ other ∈ paths, Apart files path other) :
    Undisturbed files (pipeline.update now path).files paths := by
  refine ⟨samePlaces_update unwanted undisturbed.same undisturbed.head, fun other member => ?_⟩
  exact untouched_update unwanted undisturbed.same undisturbed.head (clear other member)
    (undisturbed.untouched other (List.mem_cons_of_mem path member))

end Update

section Run
variable {pipeline : Pipeline} {files now : FileSystem} {path : String} {paths others : List String}

/-- What a run of updates changes. -/
def amendments (pipeline : Pipeline) (files : FileSystem) (paths : List String) : List Amendment :=
  paths.filterMap (pipeline.amendment? files)

theorem lands_of_mem_amendments : ∀ each ∈ pipeline.amendments files paths, each.Lands files := by
  intro amendment member
  obtain ⟨path, -, found⟩ := List.mem_filterMap.mp member
  exact (amendment?_eq_some found).2.1

theorem pairwise_amendments (apart : paths.Pairwise (Apart files)) :
    (pipeline.amendments files paths).Pairwise fun one other => one.place ≠ other.place := by
  refine apart.filterMap (pipeline.amendment? files) ?_
  intro path other apart amendment found amendment' found'
  exact apart.elsewhere found (amendment?_eq_some found').1

/-- A run of updates makes the changes that each of its files calls for at the start. -/
theorem updateAll_amends (unwanted : pipeline.backups = none)
    (undisturbed : Undisturbed files now paths) (apart : paths.Pairwise (Apart files)) :
    pipeline.updateAll now paths = (pipeline.amendments files paths).foldl amend now := by
  induction paths generalizing now with
  | nil => rfl
  | cons path paths ih =>
    obtain ⟨clear, apart⟩ := List.pairwise_cons.mp apart
    rw [updateAll_cons, ih (undisturbed.update unwanted clear) apart,
      update_of_untouched unwanted undisturbed.same undisturbed.head]
    unfold amendments
    cases found : pipeline.amendment? files path with
    | none => rw [List.filterMap_cons_none found, Option.elim]
    | some amendment => rw [List.filterMap_cons_some found, Option.elim, List.foldl_cons]

/-- A run of updates leaves each file as its update alone would leave it. -/
theorem read_updateAll (unwanted : pipeline.backups = none) (apart : paths.Pairwise (Apart files))
    (member : path ∈ paths) :
    (pipeline.updateAll files paths).read (Path.ofString path) =
      (pipeline.update files path).files.read (Path.ofString path) := by
  have untouched : Untouched files files path := fun _ _ => rfl
  refine (samePlaces_update unwanted (.refl files) untouched).read ?_ ?_
  · rw [updateAll_amends unwanted (.start files paths) apart]
    exact samePlaces_amendAll lands_of_mem_amendments
  · intro place led
    rw [updateAll_amends unwanted (.start files paths) apart, update_amends unwanted]
    cases found : pipeline.amendment? files path with
    | some amendment =>
      obtain ⟨led', lands, -⟩ := amendment?_eq_some found
      cases led'.symm.trans led
      rw [Option.elim, node?_amend_self lands]
      exact node?_amendAll_of_mem (pairwise_amendments apart) lands_of_mem_amendments
        (List.mem_filterMap.mpr ⟨path, member, found⟩)
    | none =>
      refine node?_amendAll_of_ne fun each among => ?_
      obtain ⟨other, member', found'⟩ := List.mem_filterMap.mp among
      have different : other ≠ path := by
        rintro rfl
        rw [found] at found'
        cases found'
      exact (apart.forall member' member different).elsewhere found' led

/-- A run of updates changes no other place. -/
theorem node?_updateAll_of_unnamed (unwanted : pipeline.backups = none)
    (apart : paths.Pairwise (Apart files)) {place : Place}
    (unnamed : ∀ path ∈ paths, files.locate (Path.ofString path) ≠ .ok place) :
    (pipeline.updateAll files paths).node? place = files.node? place := by
  rw [updateAll_amends unwanted (.start files paths) apart]
  refine node?_amendAll_of_ne fun each among => ?_
  obtain ⟨path, member, found⟩ := List.mem_filterMap.mp among
  rintro rfl
  exact unnamed path member (amendment?_eq_some found).1

/-- Updates come to the same in any order. -/
theorem updateAll_perm (unwanted : pipeline.backups = none) (apart : paths.Pairwise (Apart files))
    (perm : others.Perm paths) : pipeline.updateAll files others = pipeline.updateAll files paths := by
  have apart' : others.Pairwise (Apart files) := (perm.pairwise_iff fun apart => symm apart).mpr apart
  rw [updateAll_amends unwanted (.start files paths) apart,
    updateAll_amends unwanted (.start files others) apart']
  exact amendAll_perm (perm.filterMap _) (pairwise_amendments apart') lands_of_mem_amendments

end Run
end Pipeline
end Regen
