import Regen.Backup

/-! What file operations leave alone. They put a directory where nothing was, or
a file where no directory was, so a path that leads somewhere goes on leading
there. Nothing is put in place of something else as long as every way up that a
path takes is there already when the path is tried. -/
namespace Regen.FileSystem

/-- Every directory stays one, so paths lead where they led. -/
structure KeepsDirectories (before after : FileSystem) : Prop where
  base : after.workingDirectory = before.workingDirectory
  directories : ∀ place, before.node? place = some .directory → after.node? place = some .directory

/-- Whatever was there is there, unchanged. -/
structure Extends (before after : FileSystem) : Prop where
  base : after.workingDirectory = before.workingDirectory
  nodes : ∀ place node, before.node? place = some node → after.node? place = some node

/-- Everything lies in a directory, and relative paths start from one. -/
structure Rooted (files : FileSystem) : Prop where
  home : files.node? files.workingDirectory = some .directory
  above : ∀ place name node, files.node? (place ++ [name]) = some node →
    files.node? place = some .directory

/-- Where a path starts. -/
def origin (files : FileSystem) (path : Path) : Place :=
  if path.isAbsolute then [] else files.workingDirectory

/-- Wherever the path goes up, the directory it goes up from is there. -/
def CanClimb (files : FileSystem) (path : Path) : Prop :=
  ∀ before after, path.parts = before ++ ".." :: after →
    ∃ place, files.walk (files.origin path) (before ++ [".."]) = .ok place

section Relations
variable {before between after : FileSystem}

theorem Extends.refl (files : FileSystem) : Extends files files := ⟨rfl, fun _ _ found => found⟩

theorem Extends.trans (first : Extends before between) (second : Extends between after) :
    Extends before after :=
  ⟨second.base.trans first.base, fun place node found => second.nodes place node (first.nodes place node found)⟩

theorem Extends.keepsDirectories (grows : Extends before after) : KeepsDirectories before after :=
  ⟨grows.base, fun place found => grows.nodes place _ found⟩

theorem KeepsDirectories.trans (first : KeepsDirectories before between)
    (second : KeepsDirectories between after) : KeepsDirectories before after :=
  ⟨second.base.trans first.base, fun place found => second.directories place (first.directories place found)⟩

end Relations

section Put
variable {files : FileSystem} {place other : Place} {node : Node}

@[simp] theorem node?_nil (files : FileSystem) : files.node? [] = some .directory := by
  simp [node?]

@[simp] theorem workingDirectory_put (files : FileSystem) (place : Place) (node : Node) :
    (files.put place node).workingDirectory = files.workingDirectory := rfl

theorem node?_put_of_ne (different : place ≠ other) :
    (files.put place node).node? other = files.node? other := by
  simp [node?, put, Assoc.get?_set, different]

theorem node?_put_self (below : place ≠ []) : (files.put place node).node? place = some node := by
  simp [node?, put, Assoc.get?_set, below]

theorem extends_put (absent : files.node? place = none) : Extends files (files.put place node) := by
  refine ⟨rfl, fun other found held => ?_⟩
  have different : place ≠ other := by
    rintro rfl
    rw [absent] at held
    cases held
  rw [node?_put_of_ne different, held]

theorem keepsDirectories_put (free : files.node? place ≠ some .directory) :
    KeepsDirectories files (files.put place node) := by
  refine ⟨rfl, fun other held => ?_⟩
  have different : place ≠ other := by
    rintro rfl
    exact free held
  rw [node?_put_of_ne different, held]

end Put

section Walk
variable {before after files made : FileSystem} {start place : Place} {names more : List String}
  {name : String}

/-- Where a name leads from a directory. -/
def enter (start : Place) (name : String) : Place :=
  if name = ".." then start.dropLast else start ++ [name]

theorem walk_cons_of_directory (directory : files.node? start = some .directory)
    (short : name.utf8ByteSize ≤ nameLimit) :
    files.walk start (name :: names) = files.walk (enter start name) names := by
  rw [walk, directory]
  simp only [Nat.not_lt.mpr short, ↓reduceIte, enter]
  split <;> rfl

theorem walk_cons_eq_ok_iff :
    files.walk start (name :: names) = .ok place ↔
      files.node? start = some .directory ∧ name.utf8ByteSize ≤ nameLimit ∧
        files.walk (enter start name) names = .ok place := by
  constructor
  · intro led
    have directory : files.node? start = some .directory := by
      unfold walk at led
      split at led
      · cases led
      · cases led
      · assumption
    have short : name.utf8ByteSize ≤ nameLimit := by
      rw [walk, directory] at led
      dsimp only at led
      split at led
      · cases led
      · omega
    exact ⟨directory, short, walk_cons_of_directory directory short ▸ led⟩
  · rintro ⟨directory, short, led⟩
    rw [walk_cons_of_directory directory short, led]

/-- A path that leads somewhere leads there after every change. -/
theorem walk_of_keepsDirectories (keeps : KeepsDirectories before after)
    (led : before.walk start names = .ok place) : after.walk start names = .ok place := by
  induction names generalizing start with
  | nil => exact led
  | cons name names ih =>
    obtain ⟨directory, short, led⟩ := walk_cons_eq_ok_iff.mp led
    exact walk_cons_eq_ok_iff.mpr ⟨keeps.directories start directory, short, ih led⟩

/-- The way to a place passes through the place that any first part of it leads to. -/
theorem walk_append_eq_ok_iff :
    files.walk start (names ++ more) = .ok place ↔
      ∃ between, files.walk start names = .ok between ∧ files.walk between more = .ok place := by
  induction names generalizing start with
  | nil => simp [walk]
  | cons name names ih =>
    simp only [List.cons_append, walk_cons_eq_ok_iff, ih]
    constructor
    · rintro ⟨directory, short, between, first, second⟩
      exact ⟨between, ⟨directory, short, first⟩, second⟩
    · rintro ⟨between, ⟨directory, short, first⟩, second⟩
      exact ⟨directory, short, between, first, second⟩

/-- Without a way up, names only lead further down. -/
theorem walk_of_not_climbs (level : ".." ∉ names) (led : files.walk start names = .ok place) :
    place = start ++ names := by
  induction names generalizing start with
  | nil =>
    cases led
    exact (List.append_nil _).symm
  | cons name names ih =>
    obtain ⟨other, level⟩ : ".." ≠ name ∧ ".." ∉ names := by simpa using level
    obtain ⟨-, -, led⟩ := walk_cons_eq_ok_iff.mp led
    rw [ih level led, enter, if_neg (Ne.symm other), List.append_assoc, List.singleton_append]

/-- Everything above something that is there is a directory. -/
theorem Rooted.directory_above (rooted : Rooted files) {node : Node}
    (there : files.node? (start ++ name :: names) = some node) :
    files.node? start = some .directory := by
  induction names generalizing start name with
  | nil => exact rooted.above start name node there
  | cons next names ih =>
    have below : files.node? (start ++ [name]) = some .directory := ih (by simpa using there)
    exact rooted.above start name _ below

/-- Where a path led nowhere, and every way up it takes was there, nothing was
at the place to which it leads later. -/
theorem absent_of_walk_error (rooted : Rooted files) {errno : Errno}
    (climbs : ∀ before after, names = before ++ ".." :: after →
      ∃ up, files.walk start (before ++ [".."]) = .ok up)
    (lost : files.walk start names = .error errno) (led : made.walk start names = .ok place) :
    files.node? place = none := by
  induction names generalizing start with
  | nil => cases lost
  | cons name names ih =>
    obtain ⟨-, short, led'⟩ := walk_cons_eq_ok_iff.mp led
    by_cases directory : files.node? start = some .directory
    · rw [walk_cons_of_directory directory short] at lost
      refine ih ?_ lost led'
      rintro before after rfl
      obtain ⟨up, first⟩ := climbs (name :: before) after rfl
      exact ⟨up, walk_cons_of_directory directory short ▸ first⟩
    · -- The way is blocked here, so no name from here on goes up.
      have level : ".." ∉ name :: names := by
        intro member
        obtain ⟨before, after, split⟩ := List.append_of_mem member
        obtain ⟨up, first⟩ := climbs before after split
        cases before with
        | nil => exact directory (walk_cons_eq_ok_iff.mp first).1
        | cons first' before => exact directory (walk_cons_eq_ok_iff.mp first).1
      rw [walk_of_not_climbs level led, Option.eq_none_iff_forall_ne_some]
      intro node there
      exact directory (rooted.directory_above there)

end Walk

section Locate
variable {files made : FileSystem} {path : Path} {place : Place} {content : Bytes}

/-- A path that can be looked up at all: its text has no null character and is
not too long. -/
def Speakable (path : Path) : Prop :=
  path.text.toList.contains '\x00' = false ∧ path.text.utf8ByteSize < pathLimit

theorem locate_of_speakable (speakable : Speakable path) :
    files.locate path = (files.walk (files.origin path) path.parts).mapError
      fun errno => .system ⟨errno, path.text⟩ := by
  simp only [locate, speakable.1, Nat.not_le.mpr speakable.2, Bool.false_eq_true, ↓reduceIte, origin]

theorem locate_eq_ok_iff :
    files.locate path = .ok place ↔
      Speakable path ∧ files.walk (files.origin path) path.parts = .ok place := by
  by_cases speakable : Speakable path
  · rw [locate_of_speakable speakable]
    cases files.walk (files.origin path) path.parts with
    | error errno => exact iff_of_false nofun fun found => nomatch found.2
    | ok found =>
      rw [and_iff_right speakable]
      constructor
      · intro same
        cases same
        rfl
      · intro same
        cases same
        rfl
  · simp only [speakable, false_and, iff_false, locate]
    split
    · simp
    · split
      · simp
      · rename_i clean short
        exact absurd ⟨by simpa using clean, by omega⟩ speakable

theorem origin_of_base (base : made.workingDirectory = files.workingDirectory) (path : Path) :
    made.origin path = files.origin path := by
  rw [origin, origin, base]

theorem locate_of_keepsDirectories (keeps : KeepsDirectories files made)
    (led : files.locate path = .ok place) : made.locate path = .ok place := by
  obtain ⟨speakable, led⟩ := locate_eq_ok_iff.mp led
  refine locate_eq_ok_iff.mpr ⟨speakable, ?_⟩
  rw [origin_of_base keeps.base]
  exact walk_of_keepsDirectories keeps led

theorem isThere_of_locate (led : files.locate path = .ok place) :
    files.isThere path = .ok (files.node? place).isSome := by
  rw [isThere, led]

/-- What the test for a path missed is not there either where the path leads
later, provided that every way up the path takes was there for the test. -/
theorem absent_of_not_there (rooted : Rooted files) (keeps : KeepsDirectories files made)
    (climbs : CanClimb files path) (missed : files.isThere path = .ok false)
    (led : made.locate path = .ok place) : files.node? place = none := by
  obtain ⟨speakable, led⟩ := locate_eq_ok_iff.mp led
  rw [origin_of_base keeps.base] at led
  cases now : files.walk (files.origin path) path.parts with
  | ok there =>
    have same : there = place := by
      have later := walk_of_keepsDirectories keeps now
      rw [led] at later
      exact (Except.ok.inj later).symm
    rw [isThere_of_locate (locate_eq_ok_iff.mpr ⟨speakable, now⟩), same] at missed
    simpa using missed
  | error errno => exact absent_of_walk_error rooted climbs now led

theorem canClimb_of_not_climbs (level : path.climbs = false) : CanClimb files path := by
  intro before after split
  rw [Path.climbs, split] at level
  simp at level

theorem read_eq_ok_iff :
    files.read path = .ok content ↔
      ∃ place, files.locate path = .ok place ∧ files.node? place = some (.file content) := by
  unfold read
  cases files.locate path with
  | error fault => simp [bind, Except.bind]
  | ok place =>
    simp only [bind, Except.bind, Except.ok.injEq, exists_eq_left']
    split <;> rename_i found <;> simp [found, pure, Except.pure]

theorem write_eq_ok (led : files.locate path = .ok place) (free : files.node? place ≠ some .directory) :
    files.write path content = .ok (files.put place (.file content)) := by
  unfold write
  rw [led]
  simp only [bind, Except.bind]
  rfl

theorem write_ok {written : FileSystem} (done : files.write path content = .ok written) :
    ∃ place, files.locate path = .ok place ∧ files.node? place ≠ some .directory ∧
      written = files.put place (.file content) := by
  cases led : files.locate path with
  | error fault => simp [write, led, bind, Except.bind] at done
  | ok place =>
    by_cases free : files.node? place = some .directory
    · simp [write, led, free, bind, Except.bind] at done
    · rw [write_eq_ok led free] at done
      exact ⟨place, rfl, free, (Except.ok.inj done).symm⟩

theorem makeDirectory_ok (done : files.makeDirectory path = .ok made) :
    ∃ place, files.locate path = .ok place ∧ files.node? place = none ∧
      made = files.put place .directory := by
  unfold makeDirectory at done
  cases led : files.locate path with
  | error fault => simp [led, bind, Except.bind] at done
  | ok place =>
    cases there : files.node? place with
    | some node => simp [led, there, bind, Except.bind] at done
    | none =>
      simp only [led, there, bind, Except.bind, pure, Except.pure, Except.ok.injEq] at done
      exact ⟨place, rfl, there, done.symm⟩

end Locate

section Rooted
variable {files made : FileSystem} {path : Path} {start place : Place} {node : Node}

theorem rooted_of_entries (home : files.node? files.workingDirectory = some .directory)
    (above : ∀ entry ∈ files.nodes, files.node? entry.1.dropLast = some .directory) : Rooted files := by
  refine ⟨home, fun place name node there => ?_⟩
  rw [node?, if_neg (by simp)] at there
  have directory := above _ (Assoc.mem_of_get? there)
  rwa [List.dropLast_concat] at directory

theorem Rooted.dropLast (rooted : Rooted files) (directory : files.node? start = some .directory) :
    files.node? start.dropLast = some .directory := by
  rcases List.eq_nil_or_concat start with rfl | ⟨above, name, rfl⟩
  · exact directory
  · rw [List.concat_eq_append] at directory ⊢
    rw [List.dropLast_concat]
    exact rooted.above above name _ directory

/-- A path that leads to no directory leads to a name in one. -/
theorem Rooted.parent_of_walk (rooted : Rooted files) {names : List String}
    (directory : files.node? start = some .directory) (led : files.walk start names = .ok place)
    (free : files.node? place ≠ some .directory) :
    ∃ parent name, place = parent ++ [name] ∧ files.node? parent = some .directory := by
  induction names generalizing start with
  | nil =>
    cases led
    exact absurd directory free
  | cons name names ih =>
    obtain ⟨-, -, led⟩ := walk_cons_eq_ok_iff.mp led
    by_cases inside : files.node? (enter start name) = some .directory
    · exact ih inside led
    · cases names with
      | nil =>
        cases led
        unfold enter at inside ⊢
        split
        · rename_i up
          rw [if_pos up] at inside
          exact absurd (rooted.dropLast directory) inside
        · exact ⟨start, name, rfl, directory⟩
      | cons next names => exact absurd (walk_cons_eq_ok_iff.mp led).1 inside

/-- Every path starts from a directory. -/
theorem Rooted.directory_origin (rooted : Rooted files) (path : Path) :
    files.node? (files.origin path) = some .directory := by
  unfold origin
  split
  · exact node?_nil files
  · exact rooted.home

theorem Rooted.put (rooted : Rooted files) (led : files.locate path = .ok place)
    (free : files.node? place ≠ some .directory) : Rooted (files.put place node) := by
  obtain ⟨parent, name, rfl, directory⟩ :=
    rooted.parent_of_walk (rooted.directory_origin path) (locate_eq_ok_iff.mp led).2 free
  have keeps : KeepsDirectories files (files.put (parent ++ [name]) node) := keepsDirectories_put free
  refine ⟨keeps.directories _ rooted.home, fun above last found there => keeps.directories _ ?_⟩
  by_cases same : parent ++ [name] = above ++ [last]
  · rwa [← (List.append_inj' same rfl).1]
  · rw [node?_put_of_ne same] at there
    exact rooted.above above last found there

theorem rooted_of_ensureDirectory (done : files.ensureDirectory path = .ok made) :
    Extends files made ∧ (Rooted files → Rooted made) := by
  unfold ensureDirectory at done
  split at done
  · rename_i made' new
    cases done
    obtain ⟨place, led, absent, rfl⟩ := makeDirectory_ok new
    exact ⟨extends_put absent, fun rooted => rooted.put led (by simp [absent])⟩
  · split at done
    · split at done
      · cases done
        exact ⟨.refl files, id⟩
      · cases done
    · cases done

/-- Making directories leaves everything in place, also when not all of them
could be made. -/
theorem rooted_ensureDirectories (files : FileSystem) (path : Path) (levels : Nat) :
    Extends files (files.ensureDirectories path levels).files ∧
      (Rooted files → Rooted (files.ensureDirectories path levels).files) := by
  induction levels generalizing path with
  | zero =>
    unfold ensureDirectories
    cases one : files.ensureDirectory path with
    | ok made => exact rooted_of_ensureDirectory one
    | error fault => exact ⟨.refl files, id⟩
  | succ levels ih =>
    unfold ensureDirectories
    cases one : files.ensureDirectory path with
    | ok made => exact rooted_of_ensureDirectory one
    | error fault =>
      dsimp only
      split
      · obtain ⟨grows, keeps⟩ := ih path.parent
        split
        · rename_i above parents
          rw [parents] at grows keeps
          cases last : above.ensureDirectory path with
          | ok made =>
            obtain ⟨grows', keeps'⟩ := rooted_of_ensureDirectory last
            exact ⟨grows.trans grows', keeps' ∘ keeps⟩
          | error fault => exact ⟨grows, keeps⟩
        · exact ⟨grows, keeps⟩
      · exact ⟨.refl files, id⟩

end Rooted
end Regen.FileSystem
