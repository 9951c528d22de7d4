import Regen.Proofs.Configuration
import Regen.Proofs.IndependentUpdates

/-! Runs of the command. Once the pipeline of a run stands, each file is updated
as if it were alone, and a file that cannot be updated costs the run its exit
status and nothing else. A run whose configuration is wrong changes nothing. -/
namespace Regen.Command
open Pipeline

/-- What is reported of a file that cannot be updated. -/
def complaint? (pipeline : Pipeline) (files : FileSystem) (path : String) : Option String :=
  match (pipeline.update files path).run.outcome with
  | .error (.fault fault) => some fault.message
  | _ => none

/-- No update of a file fails without a report. -/
def Reported (pipeline : Pipeline) (files : FileSystem) (paths : List String) : Prop :=
  ∀ path ∈ paths, ∀ found, (pipeline.update files path).run.outcome ≠ .error (.escape found)

/-- A run that updates each of its files as if it were alone. -/
structure UpdatesEach (pipeline : Pipeline) (files : FileSystem) (paths : List String)
    (ended : Ended) : Prop where
  /-- Each file is left as its update alone leaves it. -/
  alone : ∀ path ∈ paths, ended.files.read (Path.ofString path) =
    (pipeline.update files path).files.read (Path.ofString path)
  written : ∀ path ∈ paths, ∀ output, (pipeline.update files path).run.outcome = .ok output →
    ended.files.read (Path.ofString path) = .ok (Utf8.encode output)
  kept : ∀ path ∈ paths, ∀ halt, (pipeline.update files path).run.outcome = .error halt →
    ended.files.read (Path.ofString path) = files.read (Path.ofString path)
  /-- Nothing else is changed. -/
  others : ∀ place, (∀ path ∈ paths, files.locate (Path.ofString path) ≠ .ok place) →
    ended.files.node? place = files.node? place
  /-- Each failure is reported once, in the order of the files. -/
  complaints : ended.complaints =
    paths.filterMap fun path => (complaint? pipeline files path).map ("Error: " ++ ·)
  succeeds : (∀ path ∈ paths, ∃ output, (pipeline.update files path).run.outcome = .ok output) →
    ended.status = .ok 0
  fails : (∃ path ∈ paths, ∃ halt, (pipeline.update files path).run.outcome = .error halt) →
    ended.status = .ok 1

/-- A run that changes nothing, complains once and ends with status 1. -/
structure Refused (surroundings : Surroundings) (ended : Ended) (text : String) : Prop where
  files : ended.files = surroundings.files
  status : ended.status = .ok 1
  output : ended.output = ""
  complaints : ended.complaints = [text]

section Update
variable {pipeline : Pipeline} {files now : FileSystem} {path : String} {paths : List String}
  {results : Assoc String (Option String)} {output : Text} {fault : Fault}

theorem complaint?_of_ok (ended : (pipeline.update files path).run.outcome = .ok output) :
    complaint? pipeline files path = none := by
  unfold complaint?
  simp only [ended]

theorem complaint?_of_fault (ended : (pipeline.update files path).run.outcome = .error (.fault fault)) :
    complaint? pipeline files path = some fault.message := by
  unfold complaint?
  simp only [ended]

theorem updateAll_cons (pipeline : Pipeline) (files : FileSystem)
    (results : Assoc String (Option String)) (path : String) (more : List String) :
    updateAll pipeline files results (path :: more) =
      let updated := pipeline.update files path
      match updated.run.outcome with
      | .error (.escape found) => ⟨updated.files, ⟨updated.run.events, .error found⟩⟩
      | .error (.fault fault) =>
        let rest := updateAll pipeline updated.files (results.set path (some fault.message)) more
        ⟨rest.files, ⟨updated.run.events ++ rest.run.events, rest.run.outcome⟩⟩
      | .ok _ =>
        let rest := updateAll pipeline updated.files (results.set path none) more
        ⟨rest.files, ⟨updated.run.events ++ rest.run.events, rest.run.outcome⟩⟩ := by
  rfl

/-- An update that does not fail without a report leaves one, and the run goes on. -/
theorem updateAll_cons_of_reported
    (reported : ∀ found, (pipeline.update files path).run.outcome ≠ .error (.escape found)) :
    let rest := updateAll pipeline (pipeline.update files path).files
      (results.set path (complaint? pipeline files path)) paths
    (updateAll pipeline files results (path :: paths)).files = rest.files ∧
      (updateAll pipeline files results (path :: paths)).run.outcome = rest.run.outcome := by
  rw [Command.updateAll_cons]
  cases ended : (pipeline.update files path).run.outcome with
  | ok output => simp only [ended, complaint?_of_ok ended, and_self]
  | error halt =>
    cases halt with
    | fault fault => simp only [ended, complaint?_of_fault ended, and_self]
    | escape found => exact absurd ended (reported found)

/-- The updates of a run go on past failures, and each path is reported on as if
it were alone. -/
theorem updateAll_reports (unwanted : pipeline.backups = none)
    (undisturbed : Undisturbed files now paths) (apart : paths.Pairwise (Apart files))
    (reported : Reported pipeline files paths)
    (absent : ∀ path ∈ paths, results.get? path = none) :
    (updateAll pipeline now results paths).files = pipeline.updateAll now paths ∧
      (updateAll pipeline now results paths).run.outcome =
        .ok (results ++ paths.map fun path => (path, complaint? pipeline files path)) := by
  induction paths generalizing now results with
  | nil =>
    rw [List.map_nil, List.append_nil]
    exact ⟨rfl, rfl⟩
  | cons path paths ih =>
    obtain ⟨clear, apart⟩ := List.pairwise_cons.mp apart
    have alike := outcome_update_of_untouched unwanted undisturbed.same undisturbed.head
    have same : complaint? pipeline now path = complaint? pipeline files path := by
      unfold complaint?
      rw [alike]
    have entered : results.set path (complaint? pipeline files path) =
        results ++ [(path, complaint? pipeline files path)] :=
      Assoc.set_of_absent (absent path List.mem_cons_self)
    have absent' : ∀ other ∈ paths,
        Assoc.get? (results ++ [(path, complaint? pipeline files path)]) other = none := by
      intro other member
      rw [← entered, Assoc.get?_set, if_neg (clear other member).1]
      exact absent other (List.mem_cons_of_mem path member)
    obtain ⟨left, reports⟩ := @updateAll_cons_of_reported pipeline now path paths results
      (by rw [alike]; exact reported path List.mem_cons_self)
    rw [same, entered] at left reports
    -- The later paths find what they would find without this update, and no report yet.
    obtain ⟨left', reports'⟩ := ih (undisturbed.update unwanted clear) apart
      (fun other member => reported other (List.mem_cons_of_mem path member)) absent'
    rw [left, reports, left', reports', List.append_assoc, Pipeline.updateAll_cons]
    exact ⟨rfl, rfl⟩

end Update

section Run
variable {surroundings : Surroundings} {modules : Modules} {options : Options} {words : List String}
  {pipeline : Pipeline} {found : Escape} {text : String}

theorem failures_reports (pipeline : Pipeline) (files : FileSystem) (paths : List String) :
    failures (paths.map fun path => (path, complaint? pipeline files path)) =
      paths.filterMap (complaint? pipeline files) := by
  simp only [failures, List.filterMap_map, Function.comp_def]

theorem run_of_read (read : Options.read words = .ok options) :
    run surroundings modules words = runWith surroundings modules options := by
  unfold run
  rw [read]

theorem run_of_misconfigured (read : Options.read words = .ok options)
    (wrong : Misconfigured surroundings modules options text) :
    Refused surroundings (run surroundings modules words) text := by
  rw [run_of_read read]
  unfold runWith
  simp only [wrong.outcome]
  exact ⟨rfl, rfl, rfl, rfl⟩

theorem run_of_unforeseen (read : Options.read words = .ok options)
    (unforeseen : Unforeseen surroundings modules options found) :
    (run surroundings modules words).files = surroundings.files ∧
      (run surroundings modules words).status = .error found := by
  rw [run_of_read read]
  unfold runWith
  simp only [unforeseen.outcome, and_self]

/-- A run whose pipeline stands ends as its updates alone would have it. -/
theorem run_of_builds (read : Options.read words = .ok options)
    (builds : Builds surroundings modules options pipeline) (unwanted : pipeline.backups = none)
    (apart : options.paths.Pairwise (Apart surroundings.files))
    (reported : Reported pipeline surroundings.files options.paths) :
    let failed := options.paths.filterMap (complaint? pipeline surroundings.files)
    (run surroundings modules words).files = pipeline.updateAll surroundings.files options.paths ∧
      (run surroundings modules words).status = .ok (if failed.isEmpty then 0 else 1) ∧
      (run surroundings modules words).complaints = failed.map ("Error: " ++ ·) := by
  obtain ⟨state, prepared, built, paths⟩ := builds.outcome
  obtain ⟨left, reports⟩ := @updateAll_reports pipeline surroundings.files surroundings.files
    options.paths [] unwanted (.start _ _) apart reported (fun _ _ => rfl)
  rw [List.nil_append] at reports
  rw [run_of_read read]
  unfold runWith
  simp only [prepared]
  unfold finish
  simp only [built, paths, reports, left, failures_reports, conclude, and_self]

theorem updatesEach_of_builds (read : Options.read words = .ok options)
    (builds : Builds surroundings modules options pipeline) (unwanted : pipeline.backups = none)
    (apart : options.paths.Pairwise (Apart surroundings.files))
    (reported : Reported pipeline surroundings.files options.paths) :
    UpdatesEach pipeline surroundings.files options.paths (run surroundings modules words) := by
  obtain ⟨left, status, complaints⟩ := run_of_builds read builds unwanted apart reported
  have alone (path : String) (member : path ∈ options.paths) :=
    read_updateAll unwanted apart member
  rw [← left] at alone
  constructor
  case alone => exact alone
  case written =>
    intro path member output ended
    rw [alone path member]
    rcases update_unbacked unwanted surroundings.files path with
      ⟨halt, -, -, ended'⟩ | ⟨old, output', place, -, led, held, changed, ended'⟩
    · cases ended'.symm.trans ended
    · cases ended'.symm.trans ended
      have lands : FileSystem.Amendment.Lands ⟨place, Utf8.encode output⟩ surroundings.files :=
        ⟨old, held⟩
      rw [changed]
      refine FileSystem.read_eq_ok_iff.mpr ⟨place, ?_, FileSystem.node?_amend_self lands⟩
      rw [(FileSystem.samePlaces_amend lands).locate, led]
  case kept =>
    intro path member halt ended
    rw [alone path member]
    rcases update_unbacked unwanted surroundings.files path with
      ⟨halt', -, same, -⟩ | ⟨old, output, place, -, -, -, -, ended'⟩
    · rw [same]
    · cases ended'.symm.trans ended
  case others =>
    intro place unnamed
    rw [left, node?_updateAll_of_unnamed unwanted apart unnamed]
  case complaints => rw [complaints, List.map_filterMap]
  case succeeds =>
    intro succeed
    have silent : options.paths.filterMap (complaint? pipeline surroundings.files) = [] := by
      refine List.filterMap_eq_nil_iff.mpr fun path member => ?_
      obtain ⟨output, ended⟩ := succeed path member
      exact complaint?_of_ok ended
    rw [status, silent]
    rfl
  case fails =>
    rintro ⟨path, member, halt, ended⟩
    cases halt with
    | escape found => exact absurd ended (reported path member found)
    | fault fault =>
      have complains :
          fault.message ∈ options.paths.filterMap (complaint? pipeline surroundings.files) :=
        List.mem_filterMap.mpr ⟨path, member, complaint?_of_fault ended⟩
      rw [status, if_neg]
      rw [List.isEmpty_iff]
      exact List.ne_nil_of_mem complains

end Run

/-- A command line that can be read comes to one of three ends. Either the
pipeline stands: then, where backups are off, the paths are different and lead to
different files, and no update fails without a report, each file is updated as if
it were alone, and the same files in another order come to the same. Or the
configuration is wrong, and the run complains once and changes nothing. Or, with
nothing changed either, a failure that no complaint covers leaves the program: the project's
file is no text, cannot be looked for or makes reading it fail otherwise than by not
parsing; a variable has a name that cannot be written; or importing, making or asking
what the project declares, or building the pipeline of it, fails in a way that has
nothing to do with values, types and the content of files. -/
theorem run_contains_failures (surroundings : Surroundings) (modules : Modules) (words : List String)
    (options : Options) (read : Options.read words = .ok options) :
    (∀ pipeline, Builds surroundings modules options pipeline →
      options.backup.getD surroundings.settings.backupEnabled = false →
      options.paths.Pairwise (Apart surroundings.files) →
      Reported pipeline surroundings.files options.paths →
      UpdatesEach pipeline surroundings.files options.paths (run surroundings modules words) ∧
      ∀ words' paths, Options.read words' = .ok { options with paths := paths } →
        paths.Perm options.paths →
        (run surroundings modules words').files = (run surroundings modules words).files ∧
        (run surroundings modules words').status = (run surroundings modules words).status) ∧
    (∀ text, Misconfigured surroundings modules options text →
      Refused surroundings (run surroundings modules words) text) ∧
    ((∃ pipeline, Builds surroundings modules options pipeline) ∨
      (∃ text, Misconfigured surroundings modules options text) ∨
      ∃ found, Unforeseen surroundings modules options found ∧
        (run surroundings modules words).files = surroundings.files ∧
        (run surroundings modules words).status = .error found) := by
  refine ⟨?_, fun text wrong => run_of_misconfigured read wrong, ?_⟩
  · intro pipeline builds off apart reported
    have unwanted := builds.unbacked off
    refine ⟨updatesEach_of_builds read builds unwanted apart reported, ?_⟩
    intro words' paths read' perm
    obtain ⟨left, status, -⟩ := run_of_builds read builds unwanted apart reported
    obtain ⟨left', status', -⟩ := run_of_builds read' (builds.elsewhere paths) unwanted
      ((perm.pairwise_iff fun apart => symm apart).mpr apart)
      fun path member => reported path (perm.mem_iff.mp member)
    refine ⟨by rw [left, left', updateAll_perm unwanted apart perm], ?_⟩
    have failed := perm.filterMap (complaint? pipeline surroundings.files)
    simp only [status, status', List.isEmpty_iff_length_eq_zero, failed.length_eq]
  · rcases prepare_ends surroundings modules options with builds | wrong | ⟨found, unforeseen⟩
    · exact .inl builds
    · exact .inr (.inl wrong)
    · exact .inr (.inr ⟨found, unforeseen, run_of_unforeseen read unforeseen⟩)

/-- The surroundings of a run with files in its working directory and nothing
installed. Project files and metadata may be blank, which nothing else is. -/
def plainSurroundings (files : List (String × Bytes)) : Surroundings where
  settings := .standard
  limits := ⟨1, 1⟩
  files := ⟨(["w"], .directory) :: files.map fun file => (["w", file.1], .file file.2), ["w"]⟩
  now := ⟨2024, 1, 2, 0, 0, 0, 0⟩
  installed := []
  evaluate := fun code => if (Text.strip code).isEmpty then .value "None" else .raised "NameError"
  readProject := fun text => if (Text.strip text).isEmpty then .ok .none else .error .malformed
  readMetadata := fun text => if (Text.strip text).isEmpty then .ok (.table []) else
    .error ⟨.unreadableMetadata, "Invalid statement (at line 1, column 1)"⟩

/-- A file that can be updated after one that cannot, and a project file that
does not parse. -/
def mixedSurroundings : Surroundings :=
  plainSurroundings [("bad.md", Utf8.encode "<!-- rdmx :badges -->".toList),
    ("x.md", Utf8.encode staleText), ("odd.yaml", Utf8.encode ['['])]

theorem builds_of_prepare {surroundings : Surroundings} {modules : Modules} {options : Options}
    (fine : (prepare surroundings modules options).outcome.toBool = true) :
    ∃ pipeline, Builds surroundings modules options pipeline := by
  obtain ⟨state, prepared⟩ := exists_ok_of_toBool fine
  obtain ⟨pipeline, builds, -⟩ := builds_of_prepared prepared
  exact ⟨pipeline, builds⟩

def mixedOptions : Options := { paths := ["bad.md", "x.md"], backup := some false }

/-- The file at fault is reported and kept, in whatever order the files come, and
a project file that does not parse ends the run. -/
theorem run_contains_failures_mixed :
    (∃ pipeline, Builds mixedSurroundings (Modules.flat []) mixedOptions pipeline ∧
      mixedOptions.paths.Pairwise (Apart mixedSurroundings.files) ∧
      Reported pipeline mixedSurroundings.files mixedOptions.paths ∧
      UpdatesEach pipeline mixedSurroundings.files mixedOptions.paths
        (run mixedSurroundings (Modules.flat []) ["update", "--no-backup", "bad.md", "x.md"]) ∧
      (run mixedSurroundings (Modules.flat []) ["update", "--no-backup", "x.md", "bad.md"]).files =
        (run mixedSurroundings (Modules.flat []) ["update", "--no-backup", "bad.md", "x.md"]).files) ∧
    Refused mixedSurroundings (run mixedSurroundings (Modules.flat []) ["update", "x.md", "-c", "odd.yaml"])
      "Error: Failed to parse odd.yaml:" := by
  have read : Options.read ["update", "--no-backup", "bad.md", "x.md"] = .ok mixedOptions :=
    ok_of_toOption (by decide +kernel)
  have read' : Options.read ["update", "--no-backup", "x.md", "bad.md"] =
      .ok { mixedOptions with paths := ["x.md", "bad.md"] } := ok_of_toOption (by decide +kernel)
  have read'' : Options.read ["update", "x.md", "-c", "odd.yaml"] =
      .ok { paths := ["x.md"], config := some "odd.yaml" } := ok_of_toOption (by decide +kernel)
  constructor
  · obtain ⟨pipeline, builds⟩ : ∃ pipeline, Builds mixedSurroundings (Modules.flat []) mixedOptions pipeline :=
      builds_of_prepare (by decide +kernel)
    have apart : mixedOptions.paths.Pairwise (Apart mixedSurroundings.files) := by
      have led : mixedSurroundings.files.locate (Path.ofString "bad.md") = .ok ["w", "bad.md"] :=
        ok_of_toOption (by decide +kernel)
      have led' : mixedSurroundings.files.locate (Path.ofString "x.md") = .ok ["w", "x.md"] :=
        ok_of_toOption (by decide +kernel)
      refine .cons ?_ (.cons nofun .nil)
      intro other member
      obtain rfl := List.mem_singleton.mp member
      refine ⟨by decide, fun place content bad good => ?_⟩
      cases led.symm.trans bad
      exact absurd (Except.ok.inj (led'.symm.trans good)) (by decide)
    have reported : Reported pipeline mixedSurroundings.files mixedOptions.paths := by
      have each : ((prepare mixedSurroundings (Modules.flat []) mixedOptions).outcome.toOption.bind
          State.pipeline).all (fun pipeline => mixedOptions.paths.all fun path =>
            (escape? (pipeline.update mixedSurroundings.files path).run.outcome).isNone) = true := by
        decide +kernel
      obtain ⟨state, prepared, built, -⟩ := builds.outcome
      rw [prepared] at each
      simp only [Except.toOption, Option.bind_some, built, Option.all_some] at each
      intro path member found ended
      have fine := List.all_eq_true.mp each path member
      rw [ended] at fine
      cases fine
    obtain ⟨updates, orders⟩ := (run_contains_failures mixedSurroundings (Modules.flat []) _ _ read).1 pipeline
      builds rfl apart reported
    exact ⟨pipeline, builds, apart, reported, updates, (orders _ _ read' (.swap _ _ _)).1⟩
  · have opened : mixedSurroundings.files.read
        (Project.whereabouts mixedSurroundings (some "odd.yaml")) = .ok (Utf8.encode ['[']) :=
      ok_of_toOption (by decide +kernel)
    have decoded : Utf8.decodeInPieces (Utf8.encode ['[']) = .ok ['['] :=
      ok_of_toOption (by decide +kernel)
    have wrong : Misconfigured mixedSurroundings (Modules.flat [])
        { paths := ["x.md"], config := some "odd.yaml" } _ :=
      .project (.unparsable opened decoded rfl)
    have said : "Error: " ++ (ProjectFault.unparsable
        (Project.whereabouts mixedSurroundings (some "odd.yaml"))).message =
        "Error: Failed to parse odd.yaml:" := by decide +kernel
    rw [said] at wrong
    exact (run_contains_failures mixedSurroundings (Modules.flat []) _ _ read'').2.1 _ wrong

/-- A project file that is no text. -/
def bytesSurroundings : Surroundings :=
  plainSurroundings [(".readmix.yaml", [0xff]), ("a.md", Utf8.encode ['x'])]

/-- A project file that is no text is not complained about: the failure to read it
leaves the program. -/
theorem undecodable_project_uncomplained :
    bytesSurroundings.files.read (Path.ofString ".readmix.yaml") = .ok [0xff] ∧
    (run bytesSurroundings (Modules.flat []) ["update", "a.md", "--no-backup"]).status = .error ⟨.undecodable,
      "'utf-8' codec can't decode byte 0xff in position 0: invalid start byte"⟩ ∧
    (run bytesSurroundings (Modules.flat []) ["update", "a.md", "--no-backup"]).complaints = [] ∧
    ¬∃ text, Refused bytesSurroundings
      (run bytesSurroundings (Modules.flat []) ["update", "a.md", "--no-backup"]) text := by
  have read : Options.read ["update", "a.md", "--no-backup"] =
      .ok { paths := ["a.md"], backup := some false } := ok_of_toOption (by decide +kernel)
  have opened : bytesSurroundings.files.read (Path.ofString ".readmix.yaml") = .ok [0xff] :=
    ok_of_toOption (by decide +kernel)
  have opened' : bytesSurroundings.files.read (Project.whereabouts bytesSurroundings none) =
      .ok [0xff] := ok_of_toOption (by decide +kernel)
  have ended : (run bytesSurroundings (Modules.flat []) ["update", "a.md", "--no-backup"]).status =
      .error ⟨.undecodable, "'utf-8' codec can't decode byte 0xff in position 0: invalid start byte"⟩ := by
    have one : Utf8.pieces [0xff] = [[0xff]] := by
      rw [Utf8.pieces, if_pos (by decide)]
    have undecodable : Utf8.decodeInPieces [0xff] = .error ⟨0, 1, 0xff, .start⟩ := by
      rw [Utf8.decodeInPieces, one]
      rfl
    have said : (⟨0, 1, 0xff, .start⟩ : Utf8.Fault).toEscape = ⟨.undecodable,
        "'utf-8' codec can't decode byte 0xff in position 0: invalid start byte"⟩ := by decide +kernel
    rw [← said]
    exact (run_of_unforeseen read (.unread (.undecodable opened' undecodable))).2
  refine ⟨opened, ended, by decide +kernel, ?_⟩
  rintro ⟨text, refused⟩
  exact nomatch ended.symm.trans refused.status

end Regen.Command
