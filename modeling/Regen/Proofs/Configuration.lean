import Regen.Command
import Regen.Proofs.FilesKept
import Regen.Proofs.HeaderTokens

/-! What a run of the command does before its first file. The project is loaded,
variables are defined and the pipeline is put together; the first thing that is
wrong there is complained about, and a few failures are not. For each way this
can end there is a proposition, and one of them holds. -/
namespace Regen

namespace Project

/-- Where the declarations of a project are looked for. -/
def whereabouts (surroundings : Surroundings) (asked : Option String) : Path :=
  Path.ofString (if asked.getD "" = "" then surroundings.settings.projectFile else asked.getD "")

/-- What is wrong with the file of a project: it was asked for and is not there,
it cannot be read, or it holds no table. -/
inductive Faulty (surroundings : Surroundings) (asked : Option String) : ProjectFault → Prop
  | absent : asked.isSome = true →
    surroundings.files.isThere (whereabouts surroundings asked) = .ok false →
    Faulty surroundings asked (.absent (whereabouts surroundings asked))
  | unloadable {error : FileError} :
    surroundings.files.isThere (whereabouts surroundings asked) = .ok true →
    surroundings.files.read (whereabouts surroundings asked) = .error (.system error) →
    Faulty surroundings asked (.unloadable (whereabouts surroundings asked) error)
  | unparsable {bytes : Bytes} {text : Text} :
    surroundings.files.read (whereabouts surroundings asked) = .ok bytes →
    Utf8.decodeInPieces bytes = .ok text → surroundings.readProject text = .error .malformed →
    Faulty surroundings asked (.unparsable (whereabouts surroundings asked))
  | notTable {bytes : Bytes} {text : Text} {value : Value} :
    surroundings.files.read (whereabouts surroundings asked) = .ok bytes →
    Utf8.decodeInPieces bytes = .ok text → surroundings.readProject text = .ok value →
    value ≠ .none → (∀ entries, value ≠ .table entries) →
    Faulty surroundings asked (.notTable (whereabouts surroundings asked))

/-- The file of a project fails in a way that no complaint covers: its path
cannot be looked up, it holds no text, or reading the text fails otherwise than by
finding that it does not parse. -/
inductive Unread (surroundings : Surroundings) (asked : Option String) : Escape → Prop
  | unsearchable {fault : FileFault} :
    surroundings.files.isThere (whereabouts surroundings asked) = .error fault →
    Unread surroundings asked fault.toEscape
  | undecodable {bytes : Bytes} {fault : Utf8.Fault} :
    surroundings.files.read (whereabouts surroundings asked) = .ok bytes →
    Utf8.decodeInPieces bytes = .error fault → Unread surroundings asked fault.toEscape
  | unparsed {bytes : Bytes} {text : Text} {found : Escape} :
    surroundings.files.read (whereabouts surroundings asked) = .ok bytes →
    Utf8.decodeInPieces bytes = .ok text → surroundings.readProject text = .error (.escape found) →
    Unread surroundings asked found

section Load
variable {surroundings : Surroundings} {asked : Option String} {path : Path} {bytes : Bytes}
  {fault : ProjectFault} {found : Escape}

theorem isThere_of_read {files : FileSystem} (read : files.read path = .ok bytes) :
    files.isThere path = .ok true := by
  obtain ⟨place, led, held⟩ := FileSystem.read_eq_ok_iff.mp read
  rw [FileSystem.isThere_of_locate led, held]
  rfl

/-- What is found at a path by name can be looked up by that name. -/
theorem read_ne_nullCharacter {files : FileSystem} (there : files.isThere path = .ok true) :
    files.read path ≠ .error .nullCharacter := by
  unfold FileSystem.isThere at there
  split at there
  · rename_i place led
    unfold FileSystem.read
    rw [led]
    simp only [bind, Except.bind]
    split <;> nofun
  · split at there <;> cases there
  · cases there

theorem load_of_read (read : surroundings.files.read (whereabouts surroundings asked) = .ok bytes) :
    load surroundings asked = (contentOf surroundings (whereabouts surroundings asked) bytes).map
      fun content => ⟨whereabouts surroundings asked, content, true⟩ := by
  unfold load
  unfold whereabouts at read ⊢
  simp only [isThere_of_read read, read]

theorem contentOf_eq_fault_iff : contentOf surroundings path bytes = .error (.fault fault) ↔
    ∃ text, Utf8.decodeInPieces bytes = .ok text ∧
      (surroundings.readProject text = .error .malformed ∧ fault = .unparsable path ∨
        ∃ value, surroundings.readProject text = .ok value ∧ value ≠ .none ∧
          (∀ entries, value ≠ .table entries) ∧ fault = .notTable path) := by
  unfold contentOf
  cases Utf8.decodeInPieces bytes with
  | error fault => simp
  | ok text =>
    cases parsed : surroundings.readProject text with
    | error unreadable => cases unreadable <;> simp [parsed, eq_comm]
    | ok value => cases value <;> simp [parsed, eq_comm]

theorem contentOf_eq_escape_iff : contentOf surroundings path bytes = .error (.escape found) ↔
    (∃ fault, Utf8.decodeInPieces bytes = .error fault ∧ found = fault.toEscape) ∨
      ∃ text, Utf8.decodeInPieces bytes = .ok text ∧
        surroundings.readProject text = .error (.escape found) := by
  unfold contentOf
  cases Utf8.decodeInPieces bytes with
  | error fault => simp [eq_comm]
  | ok text =>
    cases parsed : surroundings.readProject text with
    | error unreadable => cases unreadable <;> simp [parsed]
    | ok value => cases value <;> simp [parsed]

theorem load_of_unsearchable {fault : FileFault}
    (lost : surroundings.files.isThere (whereabouts surroundings asked) = .error fault) :
    load surroundings asked = .error (.escape fault.toEscape) := by
  unfold load
  unfold whereabouts at lost
  simp only [lost]

theorem load_of_missing
    (missing : surroundings.files.isThere (whereabouts surroundings asked) = .ok false) :
    load surroundings asked =
      if asked.isSome then .error (.fault (.absent (whereabouts surroundings asked)))
      else .ok ⟨whereabouts surroundings asked, [], false⟩ := by
  unfold load
  unfold whereabouts at missing ⊢
  simp only [missing]

theorem load_of_unreadable {error : FileError}
    (there : surroundings.files.isThere (whereabouts surroundings asked) = .ok true)
    (unreadable : surroundings.files.read (whereabouts surroundings asked) = .error (.system error)) :
    load surroundings asked = .error (.fault (.unloadable (whereabouts surroundings asked) error)) := by
  unfold load
  unfold whereabouts at there unreadable ⊢
  simp only [there, unreadable]

theorem Faulty.load (faulty : Faulty surroundings asked fault) :
    load surroundings asked = .error (.fault fault) := by
  cases faulty with
  | absent given missing => rw [load_of_missing missing, if_pos given]
  | unloadable there unreadable => exact load_of_unreadable there unreadable
  | unparsable read decoded parsed =>
    rw [load_of_read read, map_eq_error_iff, contentOf_eq_fault_iff]
    exact ⟨_, decoded, .inl ⟨parsed, rfl⟩⟩
  | notTable read decoded parsed some other =>
    rw [load_of_read read, map_eq_error_iff, contentOf_eq_fault_iff]
    exact ⟨_, decoded, .inr ⟨_, parsed, some, other, rfl⟩⟩

theorem Unread.load (unread : Unread surroundings asked found) :
    load surroundings asked = .error (.escape found) := by
  cases unread with
  | unsearchable lost => exact load_of_unsearchable lost
  | undecodable read undecodable =>
    rw [load_of_read read, map_eq_error_iff, contentOf_eq_escape_iff]
    exact .inl ⟨_, undecodable, rfl⟩
  | unparsed read decoded failed =>
    rw [load_of_read read, map_eq_error_iff, contentOf_eq_escape_iff]
    exact .inr ⟨_, decoded, failed⟩

/-- Where a project is not loaded, its file is at fault or could not be read at all. -/
theorem load_ends (surroundings : Surroundings) (asked : Option String) :
    (∃ project, load surroundings asked = .ok project) ∨
      (∃ fault, Faulty surroundings asked fault) ∨ ∃ found, Unread surroundings asked found := by
  cases there : surroundings.files.isThere (whereabouts surroundings asked) with
  | error lost => exact .inr (.inr ⟨_, .unsearchable there⟩)
  | ok isThere =>
    cases isThere with
    | false =>
      by_cases given : asked.isSome = true
      · exact .inr (.inl ⟨_, .absent given there⟩)
      · exact .inl ⟨_, by rw [load_of_missing there, if_neg given]⟩
    | true =>
      cases read : surroundings.files.read (whereabouts surroundings asked) with
      | error lost =>
        cases lost with
        | nullCharacter => exact absurd read (read_ne_nullCharacter there)
        | system error => exact .inr (.inl ⟨_, .unloadable there read⟩)
      | ok bytes =>
        cases content : contentOf surroundings (whereabouts surroundings asked) bytes with
        | ok entries => exact .inl ⟨_, by rw [load_of_read read, content]; rfl⟩
        | error stop =>
          cases stop with
          | fault fault =>
            obtain ⟨text, decoded, ⟨parsed, -⟩ | ⟨value, parsed, some, other, -⟩⟩ :=
              contentOf_eq_fault_iff.mp content
            · exact .inr (.inl ⟨_, .unparsable read decoded parsed⟩)
            · exact .inr (.inl ⟨_, .notTable read decoded parsed some other⟩)
          | escape found =>
            rcases contentOf_eq_escape_iff.mp content with ⟨fault, undecodable, -⟩ | ⟨text, decoded, failed⟩
            · exact .inr (.inr ⟨_, .undecodable read undecodable⟩)
            · exact .inr (.inr ⟨_, .unparsed read decoded failed⟩)

end Load

section Vars
variable {project : Project} {declared : Table} {found : Escape}

/-- Variables get their names one after the other; the first name that cannot be written
ends it. -/
theorem mapM_written (declared : Table) :
    (declared.mapM fun entry => (written entry.1).map (·, entry.2)) =
      if declared.all fun entry => entry.1.isWritable then
        .ok (declared.map fun entry => (entry.1.display, entry.2))
      else .error (.escape .unwritable) := by
  induction declared with
  | nil => rfl
  | cons entry more ih =>
    rw [List.mapM_cons, ih, List.all_cons]
    cases writable : entry.1.isWritable with
    | false =>
      rw [written, Value.write_eq_error_iff.mpr ⟨writable, rfl⟩]
      rfl
    | true =>
      rw [written, Value.write_eq_ok_iff.mpr ⟨writable, rfl⟩]
      cases more.all fun entry => entry.1.isWritable <;> rfl

theorem vars_of_table (declares : project.tableAt "vars" .vars = .ok declared) :
    project.vars = if declared.all fun entry => entry.1.isWritable then
        .ok (.ofPairs (declared.map fun entry => (entry.1.display, entry.2)))
      else .error (.escape .unwritable) := by
  unfold vars
  rw [declares]
  dsimp only
  rw [mapM_written]
  split <;> rfl

/-- Variables are not declared, without a complaint, where a name of theirs cannot be
written. -/
theorem vars_eq_escape_iff : project.vars = .error (.escape found) ↔
    found = .unwritable ∧ ∃ declared, project.tableAt "vars" .vars = .ok declared ∧
      ∃ entry ∈ declared, entry.1.isWritable = false := by
  cases declares : project.tableAt "vars" .vars with
  | error stop =>
    obtain ⟨fault, rfl⟩ : ∃ fault, stop = .fault fault := by
      unfold tableAt at declares
      split at declares
      · cases declares
      · cases declares
      · split at declares <;> cases declares
        exact ⟨_, rfl⟩
    simp [vars, declares]
  | ok declared =>
    rw [vars_of_table declares]
    cases writable : declared.all fun entry => entry.1.isWritable with
    | true =>
      refine iff_of_false nofun ?_
      rintro ⟨-, _, same, entry, member, unwritable⟩
      cases same
      rw [List.all_eq_true.mp writable entry member] at unwritable
      cases unwritable
    | false =>
      obtain ⟨entry, member, unwritable⟩ := List.all_eq_false.mp writable
      constructor
      · intro same
        cases same
        exact ⟨rfl, declared, rfl, entry, member, eq_false_of_ne_true unwritable⟩
      · rintro ⟨rfl, -⟩
        rfl

end Vars
end Project

namespace Command
open Pipeline

/-- A definition of a variable without an equals sign, or with nothing but blanks
before it. -/
def Malformed (definition : String) : Prop :=
  '=' ∉ definition.toList ∨ Text.strip (definition.toList.takeWhile (· ≠ '=')) = []

/-- The variable that a definition sets, and its value: what stands before the first
equals sign, without the blanks around it, and what stands after it. -/
def definedBy (definition : String) : String × Value :=
  (String.ofList (Text.strip (definition.toList.takeWhile (· ≠ '='))),
    .text (String.ofList (definition.toList.dropWhile (· ≠ '=')).tail))

/-- The complaint about a malformed definition. -/
def malformedText (definition : String) : String :=
  s!"Error: invalid variable definition {quote definition}, expected KEY=VALUE"

/-- The state of a run that knows its project and its variables. -/
def State.defined (options : Options) (project : Project) (vars : Entries) : State :=
  { State.ofOptions options with project := some project, environmentOk := true, vars := vars }

/-- A run gets as far as to know its project and its variables. -/
structure Defines (surroundings : Surroundings) (options : Options) (project : Project)
    (vars : Entries) : Prop where
  loaded : Project.load surroundings options.config = .ok project
  defined : ∃ declared, project.vars = .ok declared ∧ defineAll declared options.definitions = .ok vars

/-- The kinds of failure that count as mistakes of the configuration where a
pipeline is put together: values and types, files that do not hold what they
should, and complaints about projects from wherever they come. -/
def configurationKinds : List EscapeKind :=
  [.badValue, .badType, .undecodable, .unreadableMetadata, .badProject]

/-- A run knows its project and its variables, but its pipeline is not put together:
what the project declares cannot be loaded, or building fails. -/
inductive Unbuilt (surroundings : Surroundings) (modules : Modules) (options : Options) :
    ProjectStop → Prop
  | unplanned {project : Project} {vars : Entries} {stop : ProjectStop} :
    Defines surroundings options project vars →
    plan surroundings modules (State.defined options project vars) = .error stop →
    Unbuilt surroundings modules options stop
  | failed {project : Project} {vars : Entries} {planned : Plan} {found : Escape} :
    Defines surroundings options project vars →
    plan surroundings modules (State.defined options project vars) = .ok planned →
    (Pipeline.build surroundings planned).outcome = .error found →
    Unbuilt surroundings modules options (.escape found)

/-- What is wrong with the configuration of a run, and the complaint about the
first thing that is. -/
inductive Misconfigured (surroundings : Surroundings) (modules : Modules) (options : Options) :
    String → Prop
  | project {fault : ProjectFault} : Project.Faulty surroundings options.config fault →
    Misconfigured surroundings modules options ("Error: " ++ fault.message)
  | declared {project : Project} {fault : ProjectFault} :
    Project.load surroundings options.config = .ok project → project.vars = .error (.fault fault) →
    Misconfigured surroundings modules options ("Error: " ++ fault.message)
  | definition {project : Project} {declared : Entries} {before after : List String}
      {definition : String} :
    Project.load surroundings options.config = .ok project → project.vars = .ok declared →
    options.definitions = before ++ definition :: after →
    (∀ earlier ∈ before, ¬ Malformed earlier) → Malformed definition →
    Misconfigured surroundings modules options (malformedText definition)
  | planned {fault : ProjectFault} : Unbuilt surroundings modules options (.fault fault) →
    Misconfigured surroundings modules options ("Configuration error: " ++ fault.message)
  | built {found : Escape} : Unbuilt surroundings modules options (.escape found) →
    found.kind ∈ configurationKinds →
    Misconfigured surroundings modules options ("Configuration error: " ++ found.message)

/-- A run fails before its first file in a way that no complaint covers. -/
inductive Unforeseen (surroundings : Surroundings) (modules : Modules) (options : Options) :
    Escape → Prop
  | unread {found : Escape} : Project.Unread surroundings options.config found →
    Unforeseen surroundings modules options found
  | undeclared {project : Project} {declared : Table} {entry : Value × Value} :
    Project.load surroundings options.config = .ok project →
    project.tableAt "vars" .vars = .ok declared → entry ∈ declared → entry.1.isWritable = false →
    Unforeseen surroundings modules options .unwritable
  | unbuilt {found : Escape} : Unbuilt surroundings modules options (.escape found) →
    found.kind ∉ configurationKinds → Unforeseen surroundings modules options found

/-- A run gets as far as to have its pipeline. -/
inductive Builds (surroundings : Surroundings) (modules : Modules) (options : Options) :
    Pipeline → Prop
  | intro {project : Project} {vars : Entries} {planned : Plan} {pipeline : Pipeline} :
    Defines surroundings options project vars →
    plan surroundings modules (State.defined options project vars) = .ok planned →
    (Pipeline.build surroundings planned).outcome = .ok pipeline →
    Builds surroundings modules options pipeline

section Define
variable {definition : String} {vars vars' : Entries} {definitions : List String} {stop : Stop}

theorem readDefinition_of_malformed (malformed : Malformed definition) :
    readDefinition definition = .error (.complaint (malformedText definition)) := by
  have key := Text.cutAt_fst '=' definition.toList
  have value := @Text.cutAt_snd_eq_none_iff '=' definition.toList
  unfold readDefinition malformedText
  cases cut : Text.cutAt '=' definition.toList with
  | mk before after =>
    rw [cut] at key value
    cases after with
    | none => rfl
    | some after =>
      have empty : Text.strip before = [] := by
        rcases malformed with absent | empty
        · exact nomatch value.mpr absent
        · rwa [← key] at empty
      simp only [empty, List.isEmpty_nil, ↓reduceIte]

theorem readDefinition_of_not_malformed (wellFormed : ¬ Malformed definition) :
    readDefinition definition = .ok (definedBy definition) := by
  have key := Text.cutAt_fst '=' definition.toList
  have value := @Text.cutAt_snd_eq_none_iff '=' definition.toList
  have rest := Text.cutAt_snd '=' definition.toList
  obtain ⟨present, named⟩ := not_or.mp wellFormed
  unfold readDefinition definedBy
  cases cut : Text.cutAt '=' definition.toList with
  | mk before after =>
    rw [cut] at key value rest
    cases after with
    | none => exact absurd (value.mp rfl) present
    | some after =>
      rw [← key] at named ⊢
      rw [rest after rfl]
      simp only [List.isEmpty_iff, named, ↓reduceIte]

theorem defineAll_of_malformed {before after : List String}
    (wellFormed : ∀ earlier ∈ before, ¬ Malformed earlier) (malformed : Malformed definition) :
    defineAll vars (before ++ definition :: after) = .error (.complaint (malformedText definition)) := by
  induction before generalizing vars with
  | nil => simp only [List.nil_append, defineAll, readDefinition_of_malformed malformed]
  | cons first before ih =>
    have read := readDefinition_of_not_malformed (wellFormed first List.mem_cons_self)
    simp only [List.cons_append, defineAll, read]
    exact ih fun earlier member => wellFormed earlier (List.mem_cons_of_mem first member)

/-- Definitions are entered unless one of them is malformed; the first such one
is complained about. -/
theorem defineAll_ends (vars : Entries) (definitions : List String) :
    (∃ vars', defineAll vars definitions = .ok vars') ∨
      ∃ before definition after, definitions = before ++ definition :: after ∧
        (∀ earlier ∈ before, ¬ Malformed earlier) ∧ Malformed definition := by
  induction definitions generalizing vars with
  | nil => exact .inl ⟨vars, rfl⟩
  | cons first more ih =>
    by_cases malformed : Malformed first
    · exact .inr ⟨[], first, more, rfl, by simp, malformed⟩
    · have read := readDefinition_of_not_malformed malformed
      rcases ih (vars.set (definedBy first).1 (definedBy first).2) with
        ⟨vars', defined⟩ | ⟨before, definition, after, rfl, wellFormed, bad⟩
      · exact .inl ⟨vars', by simp only [defineAll, read, defined]⟩
      · refine .inr ⟨first :: before, definition, after, rfl, ?_, bad⟩
        intro earlier member
        rcases List.mem_cons.mp member with rfl | member
        · exact malformed
        · exact wellFormed earlier member

end Define

section Prepare
variable {surroundings : Surroundings} {modules : Modules} {options : Options} {project : Project}
  {vars : Entries} {planned : Plan} {pipeline : Pipeline} {found : Escape} {text : String}

theorem isConfiguration_iff {kind : EscapeKind} :
    isConfiguration kind = true ↔ kind ∈ configurationKinds := by
  cases kind <;> simp [isConfiguration, configurationKinds]

/-- A plan that stands has the generators and the sources that the project declares. -/
theorem plan_eq_ok_iff {options : Options} {vars : Entries} :
    plan surroundings modules (State.defined options project vars) = .ok planned ↔
      ∃ generators scopes, project.generators modules = .ok generators ∧
        project.scopes surroundings.settings modules = .ok scopes ∧
        planned = ⟨surroundings.settings.alone, generators, Value.ofEntries vars, scopes,
          options.backup, options.backupDirectory, none⟩ := by
  unfold plan
  constructor
  · intro stands
    obtain ⟨generators, loaded, stands⟩ := bind_eq_ok_iff.mp stands
    obtain ⟨scopes, found, stands⟩ := bind_eq_ok_iff.mp stands
    cases stands
    exact ⟨generators, scopes, loaded, found, rfl⟩
  · rintro ⟨generators, scopes, loaded, found, rfl⟩
    exact bind_eq_ok_iff.mpr ⟨generators, loaded, bind_eq_ok_iff.mpr ⟨scopes, found, rfl⟩⟩

theorem outcome_checkEnvironment (surroundings : Surroundings) (state : State) :
    (checkEnvironment surroundings state).outcome =
      ((Project.load surroundings state.config).mapError stopAt).bind fun project =>
        .ok { state with project := some project, environmentOk := true } := by
  unfold checkEnvironment
  simp only [Run.outcome_seq, Run.outcome_record, Run.outcome_ofExcept, Run.outcome_return, Except.bind]

theorem outcome_defineVariables (state : State) :
    (defineVariables state).outcome = (declared state.project).bind fun vars =>
      (defineAll vars state.definitions).bind fun vars => .ok { state with vars := vars } := by
  unfold defineVariables
  simp only [Run.outcome_seq, Run.outcome_record, Run.outcome_ofExcept, Run.outcome_return, Except.bind]

theorem outcome_buildPipeline (surroundings : Surroundings) (modules : Modules) (state : State) :
    (buildPipeline surroundings modules state).outcome =
      ((plan surroundings modules state).mapError stopPlanning).bind
        fun planned => ((Pipeline.build surroundings planned).outcome.mapError stopBuilding).bind
          fun pipeline => .ok { state with pipeline := some pipeline } := by
  unfold buildPipeline
  simp only [Run.outcome_seq, Run.outcome_record, Run.outcome_ofExcept, Run.outcome_return,
    Run.outcome_mapError, Except.bind]

theorem declared_some (project : Project) :
    declared (some project) = project.vars.mapError stopAt := rfl

/-- Preparing is loading, defining and building, one after the other. -/
theorem outcome_prepare (surroundings : Surroundings) (modules : Modules) (options : Options) :
    (prepare surroundings modules options).outcome =
      ((Project.load surroundings options.config).mapError stopAt).bind fun project =>
        (declared (some project)).bind fun vars =>
          (defineAll vars options.definitions).bind fun vars =>
            (buildPipeline surroundings modules (State.defined options project vars)).outcome := by
  unfold prepare
  simp only [Run.through, Run.outcome_bind, Run.outcome_pure, outcome_checkEnvironment,
    outcome_defineVariables]
  unfold State.ofOptions
  cases Project.load surroundings options.config with
  | error stop => rfl
  | ok project =>
    simp only [mapError_ok, Except.bind]
    cases declared (some project) with
    | error stop => rfl
    | ok vars =>
      dsimp only
      cases defineAll vars options.definitions with
      | error stop => rfl
      | ok vars =>
        dsimp only [State.defined, State.ofOptions]
        split <;> simp_all

theorem Defines.outcome (defines : Defines surroundings options project vars) :
    (prepare surroundings modules options).outcome =
      (buildPipeline surroundings modules (State.defined options project vars)).outcome := by
  obtain ⟨loaded, declared', found, entered⟩ := defines
  rw [outcome_prepare, loaded]
  simp only [mapError_ok, Except.bind, declared_some, found, entered]

theorem Unbuilt.outcome {stop : ProjectStop} (unbuilt : Unbuilt surroundings modules options stop) :
    (prepare surroundings modules options).outcome = .error (stopPlanning stop) := by
  cases unbuilt with
  | unplanned defines refused =>
    rw [defines.outcome, outcome_buildPipeline, refused]
    rfl
  | failed defines planned failed =>
    rw [defines.outcome, outcome_buildPipeline, planned]
    simp only [mapError_ok, mapError_error, Except.bind, failed, stopPlanning]

theorem Misconfigured.outcome (wrong : Misconfigured surroundings modules options text) :
    (prepare surroundings modules options).outcome = .error (.complaint text) := by
  cases wrong with
  | project faulty =>
    rw [outcome_prepare, faulty.load]
    rfl
  | declared loaded refused =>
    rw [outcome_prepare, loaded]
    simp only [mapError_ok, mapError_error, Except.bind, declared_some, refused, stopAt]
  | definition loaded found split wellFormed malformed =>
    rw [outcome_prepare, loaded, split]
    simp only [mapError_ok, Except.bind, declared_some, found,
      defineAll_of_malformed wellFormed malformed]
  | planned unbuilt =>
    rw [unbuilt.outcome]
    rfl
  | built unbuilt kind =>
    rw [unbuilt.outcome]
    simp only [stopPlanning, stopBuilding, isConfiguration_iff.mpr kind, ↓reduceIte, misconfigured]

theorem Unforeseen.outcome (unforeseen : Unforeseen surroundings modules options found) :
    (prepare surroundings modules options).outcome = .error (.escape found) := by
  cases unforeseen with
  | unread unread =>
    rw [outcome_prepare, unread.load]
    rfl
  | undeclared loaded declares member unwritable =>
    have failed := Project.vars_eq_escape_iff.mpr ⟨rfl, _, declares, _, member, unwritable⟩
    rw [outcome_prepare, loaded]
    simp only [mapError_ok, mapError_error, Except.bind, declared_some, failed, stopAt]
  | unbuilt unbuilt kind =>
    rw [unbuilt.outcome]
    simp only [stopPlanning, stopBuilding, isConfiguration_iff, kind, ↓reduceIte]

/-- A pipeline that is not put together is complained about, unless the kind of the
failure has nothing to do with the configuration. -/
theorem Unbuilt.ends {stop : ProjectStop} (unbuilt : Unbuilt surroundings modules options stop) :
    (∃ text, Misconfigured surroundings modules options text) ∨
      ∃ found, Unforeseen surroundings modules options found := by
  cases stop with
  | fault fault => exact .inl ⟨_, .planned unbuilt⟩
  | escape found =>
    by_cases kind : found.kind ∈ configurationKinds
    · exact .inl ⟨_, .built unbuilt kind⟩
    · exact .inr ⟨found, .unbuilt unbuilt kind⟩

theorem Builds.outcome (builds : Builds surroundings modules options pipeline) :
    ∃ state, (prepare surroundings modules options).outcome = .ok state ∧
      state.pipeline = some pipeline ∧ state.paths = options.paths := by
  obtain ⟨defines, planned, built⟩ := builds
  rw [defines.outcome, outcome_buildPipeline, planned]
  simp only [mapError_ok, Except.bind, built]
  exact ⟨_, rfl, rfl, rfl⟩

/-- Preparing a run leads to a pipeline, to a complaint or to a failure that none covers. -/
theorem prepare_ends (surroundings : Surroundings) (modules : Modules) (options : Options) :
    (∃ pipeline, Builds surroundings modules options pipeline) ∨
      (∃ text, Misconfigured surroundings modules options text) ∨
      ∃ found, Unforeseen surroundings modules options found := by
  rcases Project.load_ends surroundings options.config with
    ⟨project, loaded⟩ | ⟨fault, faulty⟩ | ⟨found, unread⟩
  · cases declares : project.vars with
    | error stop =>
      cases stop with
      | fault fault => exact .inr (.inl ⟨_, .declared loaded declares⟩)
      | escape found =>
        obtain ⟨rfl, declared, table, entry, member, unwritable⟩ := Project.vars_eq_escape_iff.mp declares
        exact .inr (.inr ⟨_, .undeclared loaded table member unwritable⟩)
    | ok declared =>
      rcases defineAll_ends declared options.definitions with
        ⟨vars, entered⟩ | ⟨before, definition, after, split, wellFormed, malformed⟩
      · have defines : Defines surroundings options project vars := ⟨loaded, declared, declares, entered⟩
        cases planned : plan surroundings modules (State.defined options project vars) with
        | error stop => exact .inr (Unbuilt.unplanned defines planned).ends
        | ok plan =>
          cases built : (Pipeline.build surroundings plan).outcome with
          | ok pipeline => exact .inl ⟨pipeline, .intro defines planned built⟩
          | error found => exact .inr (Unbuilt.failed defines planned built).ends
      · exact .inr (.inl ⟨_, .definition loaded declares split wellFormed malformed⟩)
  · exact .inr (.inl ⟨_, .project faulty⟩)
  · exact .inr (.inr ⟨found, .unread unread⟩)

/-- A run that is ready for its files has its pipeline. -/
theorem builds_of_prepared {state : State}
    (prepared : (prepare surroundings modules options).outcome = .ok state) :
    ∃ pipeline, Builds surroundings modules options pipeline ∧ state.pipeline = some pipeline := by
  rcases prepare_ends surroundings modules options with
    ⟨pipeline, builds⟩ | ⟨text, wrong⟩ | ⟨found, unforeseen⟩
  · obtain ⟨state', prepared', made, -⟩ := builds.outcome
    cases prepared.symm.trans prepared'
    exact ⟨pipeline, builds, made⟩
  · cases prepared.symm.trans wrong.outcome
  · cases prepared.symm.trans unforeseen.outcome

/-- Where backups are not wanted there is no directory for them. -/
theorem Builds.unbacked (builds : Builds surroundings modules options pipeline)
    (unwanted : options.backup.getD surroundings.settings.backupEnabled = false) :
    pipeline.backups = none := by
  obtain ⟨defines, planned, built⟩ := builds
  obtain ⟨generators, scopes, -, -, rfl⟩ := plan_eq_ok_iff.mp planned
  obtain ⟨registry, merged, -, -, rfl⟩ := build_eq_ok_iff.mp built
  exact if_neg (by simp [Settings.alone, unwanted])

/-- The pipeline of a run does not depend on its files. -/
theorem Builds.elsewhere (builds : Builds surroundings modules options pipeline) (paths : List String) :
    Builds surroundings modules { options with paths := paths } pipeline := by
  obtain ⟨defines, planned, built⟩ := builds
  exact .intro ⟨defines.loaded, defines.defined⟩ planned built

end Prepare

end Command
end Regen
