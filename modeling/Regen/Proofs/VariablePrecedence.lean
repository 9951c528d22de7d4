import Regen.Proofs.BlamedDirectives
import Regen.Proofs.CommandRuns
import Regen.Proofs.MergedVariables

/-! The precedence of variables. What is defined with a run comes before what its
project declares, and that before what sources provide; of several definitions the
last one counts, of several sources the first. The tables of a run are merged to that
effect, and both ways to a variable, by a parameter and by a generator, lead there. -/
namespace Regen

namespace Assoc
variable {κ ν : Type} [DecidableEq κ]

/-- The value of the last of several pairs with a key. -/
def last? (pairs : List (κ × ν)) (key : κ) : Option ν := get? pairs.reverse key

/-- Entries with pairs entered one after the other. -/
def setAll (entries : Assoc κ ν) (pairs : List (κ × ν)) : Assoc κ ν :=
  pairs.foldl (fun entries pair => set entries pair.1 pair.2) entries

theorem get?_append (first second : Assoc κ ν) (key : κ) :
    get? (first ++ second) key = (get? first key).or (get? second key) :=
  List.lookup_append

/-- Of pairs that are entered the last one with a key counts, and all come before what
was there. -/
theorem get?_setAll (entries : Assoc κ ν) (pairs : List (κ × ν)) (key : κ) :
    get? (setAll entries pairs) key = (last? pairs key).or (get? entries key) := by
  induction pairs generalizing entries with
  | nil => rfl
  | cons pair more ih =>
    have later : get? (setAll entries (pair :: more)) key =
        (last? more key).or (get? (set entries pair.1 pair.2) key) := ih _
    rw [later, get?_set, last?, last?, List.reverse_cons, get?_append, get?_cons, Option.or_assoc]
    split <;> rfl

end Assoc

namespace Table

theorem at?_ofEntries (entries : Entries) (name : String) :
    (ofEntries entries).at? name = entries.get? name := by
  induction entries with
  | nil => rfl
  | cons entry more ih =>
    have step : (ofEntries (entry :: more)).at? name =
        if entry.1 = name then some entry.2 else (ofEntries more).at? name := by
      simp [ofEntries, at?_cons]
    rw [step, Assoc.get?_cons, ih]

theorem ofEntries_set (entries : Entries) (name : String) (value : Value) :
    ofEntries (entries.set name value) = (ofEntries entries).set (.text name) value := by
  induction entries with
  | nil => rfl
  | cons entry more ih =>
    unfold ofEntries at ih ⊢
    by_cases same : entry.1 = name
    · simp [Assoc.set_cons, Table.set, same]
    · simp [Assoc.set_cons, Table.set, same, ih]

/-- Entries under names that are entered into a mapping leave one. -/
theorem IsMapping.setAll {entries : Entries} (mapping : (ofEntries entries).IsMapping)
    (pairs : List (String × Value)) : (ofEntries (Assoc.setAll entries pairs)).IsMapping := by
  induction pairs generalizing entries with
  | nil => exact mapping
  | cons pair more ih =>
    refine ih (?_ : (ofEntries (entries.set pair.1 pair.2)).IsMapping)
    rw [ofEntries_set]
    exact mapping.set ..

end Table

/-- The value that a literal stands for, where variables have the values given. -/
def Header.Literal.under (value? : String → Option Value) : Header.Literal → Option Value
  | .variable name => value? name
  | literal => some literal.asWritten

/-- The report of a variable that is not defined, at a directive. -/
def undefinedAt (file : String) (loc : Position) (name : Value) : Halt :=
  .fault ⟨.undefinedVariable name, some loc, some file⟩

namespace Pipeline
open Bindings
open Regen.Tree (postorderAll)

/-- Documents see variables with some values. A parameter stands for the value of its
variable, and a generator that reads a variable goes on with the value; either way a
variable without a value is reported at the directive. -/
structure Sees (pipeline : Pipeline) (value? : String → Option Value) : Prop where
  /-- The parameters of a call are checked with the values of their variables put in. -/
  given : ∀ block call, pipeline.bindings.call block = .ok call →
    ∃ action given, pipeline.bindings.registry.action? block.start.name = some action ∧
      List.Forall₂ (fun param entry => entry.1 = param.key ∧ param.value.under value? = some entry.2)
        block.start.params given ∧
      action.schema.check given = .ok call.params
  /-- A known action is refused for the first of its parameters without a value. -/
  refused : ∀ block action name,
    pipeline.bindings.registry.action? block.start.name = some action →
    (pipeline.bindings.call block = .error (.cause (.undefinedVariable (.text name))) ↔
      ∃ before param after, block.start.params = before ++ param :: after ∧
        (∀ earlier ∈ before, (earlier.value.under value?).isSome) ∧
        param.value = .variable name ∧ value? name = none)
  /-- The first directive to be refused is the one reported. -/
  reported : ∀ file source document before block after name,
    Document.parse pipeline.limits.nesting pipeline.settings file source = .ok document →
    postorderAll document.nodes = before ++ block :: after →
    (∀ earlier ∈ before, ∃ call, pipeline.bindings.call earlier = .ok call) →
    pipeline.bindings.call block = .error (.cause (.undefinedVariable (.text name))) →
    (pipeline.transform file source).outcome =
      .error (undefinedAt document.file block.start.loc (.text name))
  /-- Every generator that is called finds the variables so, and what it misses is reported. -/
  read : ∀ file source document trees,
    Document.parse pipeline.limits.nesting pipeline.settings file source = .ok document →
    pipeline.bindings.resolveAll document.file document.nodes = .ok trees →
    ∃ turns, Pass pipeline.bindings.Conducts document.file pipeline.bindings.vars
        pipeline.limits.levels [] trees turns
        (pipeline.bindings.renderAll document.file pipeline.limits.levels [] trees).outcome ∧
      ∀ nodes pass, Inside trees turns nodes pass → ∀ turn ∈ pass,
        (∀ name next, turn.context.reading name next =
          (value? name).elim (.reply (.undefined (.text name))) next) ∧
        ∀ name, turn.reply = some (.undefined name) → name.isWritable = true →
          (pipeline.transform file source).outcome =
            .error (undefinedAt document.file turn.context.call.loc name)

section Sees
variable {pipeline : Pipeline} {bindings : Bindings} {value? : String → Option Value} {block : Block}

theorem valueOf?_eq_under (same : ∀ name, bindings.vars.at? name = value? name)
    (literal : Header.Literal) : bindings.valueOf? literal = literal.under value? := by
  cases literal <;> simp only [valueOf?, Header.Literal.under, same]

theorem undefined_iff {action : Action} {name : String}
    (known : bindings.registry.action? block.start.name = some action) :
    bindings.call block = .error (.cause (.undefinedVariable (.text name))) ↔
      ∃ before param after, block.start.params = before ++ param :: after ∧
        (∀ earlier ∈ before, (bindings.valueOf? earlier.value).isSome) ∧
        param.value = .variable name ∧ bindings.vars.at? name = none := by
  rw [call_eq_error_iff]
  constructor
  · intro refuses
    cases refuses with
    | variableUndefined _ _ params fine named undefined =>
      exact ⟨_, _, _, params, fine, named, undefined⟩
  · rintro ⟨before, param, after, params, fine, named, undefined⟩
    obtain ⟨entry, known, declared⟩ := Option.bind_eq_some_iff.mp known
    exact .variableUndefined known declared params fine named undefined

theorem reading_eq {context : Context} (same : ∀ name, context.vars.at? name = value? name)
    (name : String) (next : Value → Script) :
    context.reading name next = (value? name).elim (.reply (.undefined (.text name))) next := by
  unfold Context.reading
  rw [same name]
  cases value? name <;> rfl

/-- The table of a pipeline decides what its documents see. -/
theorem sees_of_at? (same : ∀ name, pipeline.bindings.vars.at? name = value? name) :
    pipeline.Sees value? := by
  have under (literal : Header.Literal) :
      pipeline.bindings.valueOf? literal = literal.under value? := valueOf?_eq_under same literal
  constructor
  case given =>
    intro block call called
    obtain ⟨entry, action, given, known, declared, gave, checked, -⟩ := made_of_call called
    have gives : pipeline.bindings.Gives block.start.params given := given_eq_ok_iff.mp gave
    refine ⟨action, given, Option.bind_eq_some_iff.mpr ⟨entry, known, declared⟩,
      gives.imp fun param entry gave => ?_, checked⟩
    rw [← under]
    exact gave
  case refused =>
    intro block action name known
    rw [undefined_iff known]
    simp only [under, same]
  case reported =>
    intro file source document before block after name parsed order fine refused
    refine outcome_transform_of_refused parsed (resolveAll_eq_error_iff.mpr ?_)
    exact ⟨before, block, after, _, order, fine, call_eq_error_iff.mp refused, rfl⟩
  case read =>
    intro file source document trees parsed bound
    obtain ⟨turns, ran, -⟩ :=
      pass_of_renderAll pipeline.bindings document.file pipeline.limits.levels [] trees
    refine ⟨turns, ran, fun nodes pass inside turn taken => ⟨?_, ?_⟩⟩
    · intro name next
      obtain ⟨below, ended, inner, -⟩ := inside.ran ran
      exact reading_eq (by rw [inner.vars_eq taken]; exact same) name next
    · intro name replied writable
      have reports : turn.Reports document.file
          (undefinedAt document.file turn.context.call.loc name) :=
        ⟨_, replied, settle_eq_fault_iff.mpr ⟨.undefined, by simpa [Fault.isWritable, Cause.told]⟩⟩
      rw [outcome_transform_of_bound parsed bound,
        (ran.halts_iff).mpr ⟨nodes, pass, inside, turn, taken, reports⟩]
      rfl

end Sees
end Pipeline

namespace Command
open Pipeline Variables

/-- The variables that a table declares; its keys stand for names. -/
def declaredBy (table : Table) : List (String × Value) :=
  table.map fun entry => (entry.1.display, entry.2)

/-- Where the variables of a run come from: definitions, the table that the project
declares, and the tables of sources. -/
structure Origins where
  definitions : List String
  declared : Table
  provided : List Table

/-- The value under a name: that of its last definition, or else the one declared for
it, or else that of the first source with the name. -/
def Origins.value? (origins : Origins) (name : String) : Option Value :=
  (Assoc.last? (origins.definitions.map definedBy) name).or
    ((Assoc.last? (declaredBy origins.declared) name).or
      (origins.provided.findSome? fun table => table.at? name))

/-- The sources of a project that declares none. -/
def standardSources (surroundings : Surroundings) : List Supplied :=
  [.scope (.metadata (Path.ofString surroundings.settings.metadataFile))]

/-- A run draws its variables from some origins: its definitions are well formed, its
project declares a table, and its sources provide mappings. -/
structure Draws (surroundings : Surroundings) (modules : Modules) (options : Options)
    (project : Project) (origins : Origins) : Prop where
  given : options.definitions = origins.definitions
  wellFormed : ∀ definition ∈ origins.definitions, ¬Malformed definition
  loaded : Project.load surroundings options.config = .ok project
  declares : project.tableAt "vars" .vars = .ok origins.declared
  provides : ∃ sources, project.scopes surroundings.settings modules = .ok sources ∧
    List.Forall₂ (Provides surroundings) (sources.getD (standardSources surroundings)) origins.provided

/-- The registry of a run with some generators besides the built-in one. -/
def registryOf (surroundings : Surroundings) (generators : List (String × Supplied)) :
    Run Escape Registry :=
  registerAll [] ((surroundings.settings.defaultNamespace,
    .generator (Builtin.generator surroundings.evaluate surroundings.installed)) :: generators)

/-- The variables that are defined with a run, on top of those that its project declares. -/
def Origins.entries (origins : Origins) : Entries :=
  Assoc.setAll (Assoc.ofPairs (declaredBy origins.declared)) (origins.definitions.map definedBy)

section Draws
variable {surroundings : Surroundings} {modules : Modules} {options : Options} {project : Project}
  {origins : Origins} {pipeline : Pipeline} {definitions : List String}

theorem defineAll_of_wellFormed (vars : Entries)
    (wellFormed : ∀ definition ∈ definitions, ¬Malformed definition) :
    defineAll vars definitions = .ok (Assoc.setAll vars (definitions.map definedBy)) := by
  induction definitions generalizing vars with
  | nil => rfl
  | cons first more ih =>
    obtain ⟨fine, wellFormed⟩ := List.forall_mem_cons.mp wellFormed
    simp only [defineAll, readDefinition_of_not_malformed fine]
    exact ih _ wellFormed

theorem Draws.defines (draws : Draws surroundings modules options project origins)
    (named : ∀ entry ∈ origins.declared, entry.1.isWritable = true) :
    Defines surroundings options project origins.entries := by
  have declared : project.vars = .ok (Assoc.ofPairs (declaredBy origins.declared)) := by
    rw [Project.vars_of_table draws.declares, if_pos (List.all_eq_true.mpr named)]
    rfl
  refine ⟨draws.loaded, _, declared, ?_⟩
  rw [draws.given]
  exact defineAll_of_wellFormed _ draws.wellFormed

/-- Variables that are defined have names that can be written. -/
theorem Draws.named (draws : Draws surroundings modules options project origins) {project' : Project}
    {vars : Entries} (defines : Defines surroundings options project' vars) :
    ∀ entry ∈ origins.declared, entry.1.isWritable = true := by
  obtain ⟨loaded, declared, found, -⟩ := defines
  cases draws.loaded.symm.trans loaded
  rw [Project.vars_of_table draws.declares] at found
  split at found
  · rename_i named
    exact List.all_eq_true.mp named
  · cases found

/-- A name that cannot be written ends a run before its first file. -/
theorem Draws.unforeseen (draws : Draws surroundings modules options project origins)
    (unnamed : ∃ entry ∈ origins.declared, entry.1.isWritable = false) :
    Unforeseen surroundings modules options .unwritable := by
  obtain ⟨entry, member, unwritable⟩ := unnamed
  exact .undeclared draws.loaded draws.declares member unwritable

theorem Defines.unique {project' : Project} {vars vars' : Entries}
    (defines : Defines surroundings options project vars)
    (defines' : Defines surroundings options project' vars') : project' = project ∧ vars' = vars := by
  obtain ⟨loaded, declared, found, entered⟩ := defines
  obtain ⟨loaded', declared', found', entered'⟩ := defines'
  cases loaded.symm.trans loaded'
  cases found.symm.trans found'
  cases entered.symm.trans entered'
  exact ⟨rfl, rfl⟩

theorem Origins.at?_entries (origins : Origins) (name : String) :
    (Table.ofEntries origins.entries).at? name =
      (Assoc.last? (origins.definitions.map definedBy) name).or
        (Assoc.last? (declaredBy origins.declared) name) := by
  have declared : Assoc.ofPairs (declaredBy origins.declared) =
      Assoc.setAll [] (declaredBy origins.declared) := rfl
  rw [Table.at?_ofEntries, entries, Assoc.get?_setAll, declared, Assoc.get?_setAll, Assoc.get?_nil,
    Option.or_none]

theorem Origins.isMapping_entries (origins : Origins) : (Table.ofEntries origins.entries).IsMapping := by
  have none : (Table.ofEntries []).IsMapping := .nil
  exact (none.setAll (declaredBy origins.declared)).setAll _

/-- The tables of a run are merged into one with the values by precedence. -/
theorem Draws.merged (draws : Draws surroundings modules options project origins)
    {sources : Option (List Supplied)}
    (found : project.scopes surroundings.settings modules = .ok sources) :
    ∃ merged, (merge surroundings (Value.ofEntries origins.entries)
        (sources.getD (standardSources surroundings))).outcome = .ok merged ∧
      ∀ name, merged.at? name = origins.value? name := by
  obtain ⟨sources', found', provides⟩ := draws.provides
  cases found.symm.trans found'
  have known : given? (Value.ofEntries origins.entries) = some (Table.ofEntries origins.entries) := rfl
  obtain ⟨merged, ended, values⟩ := at?_of_merge known origins.isMapping_entries provides
  refine ⟨merged, ended, fun name => ?_⟩
  rw [values, origins.at?_entries, Option.or_assoc]
  rfl

theorem Draws.at?_of_builds (draws : Draws surroundings modules options project origins)
    (builds : Builds surroundings modules options pipeline) (name : String) :
    pipeline.bindings.vars.at? name = origins.value? name := by
  obtain ⟨defines, planned, built⟩ := builds
  obtain ⟨rfl, rfl⟩ := (draws.defines (draws.named defines)).unique defines
  obtain ⟨generators, sources, -, found, rfl⟩ := plan_eq_ok_iff.mp planned
  obtain ⟨registry, merged, -, ended, rfl⟩ := build_eq_ok_iff.mp built
  obtain ⟨merged', ended', values⟩ := draws.merged found
  cases ended.symm.trans ended'
  exact values name

/-- Variables with names never keep a pipeline from being built whose generators can be
registered. -/
theorem Draws.builds (draws : Draws surroundings modules options project origins)
    (named : ∀ entry ∈ origins.declared, entry.1.isWritable = true)
    {generators : List (String × Supplied)} {registry : Registry}
    (loaded : project.generators modules = .ok generators)
    (registered : (registryOf surroundings generators).outcome = .ok registry) :
    ∃ pipeline, Builds surroundings modules options pipeline ∧
      pipeline.bindings.registry = registry := by
  obtain ⟨sources, found, -⟩ := draws.provides
  obtain ⟨merged, ended, -⟩ := draws.merged found
  exact ⟨_, .intro (draws.defines named) (plan_eq_ok_iff.mpr ⟨generators, sources, loaded, found, rfl⟩)
    (build_eq_ok_iff.mpr ⟨registry, merged, registered, ended, rfl⟩), rfl⟩

end Draws

/-- Variables come from the first table that has them. Sources may be merged in steps,
and a merge fails for what is given with it or for the first source without a table,
where sources return at all because of a value that is none; the failure is about the
type of that value, unless the value cannot be written into the complaint. A run that
draws its variables from some origins gets as far as to its files whenever its generators
can be registered and the declared names can be written, and only then, and its documents
see every variable with its value by precedence. -/
theorem variables_take_precedence (surroundings : Surroundings) :
    (∀ given first second, merge surroundings given (first ++ second) =
      (merge surroundings given first).bind fun merged => merge surroundings (.table merged) second) ∧
    (∀ given sources found, (merge surroundings given sources).outcome = .error found ↔
      Stops surroundings given sources found) ∧
    (∀ given sources values, List.Forall₂ (Returns surroundings) sources values →
      ((∃ found, (merge surroundings given sources).outcome = .error found) ↔
        given? given = none ∨ ∃ value ∈ values, ∀ entries, value ≠ .table entries) ∧
      (given.isWritable = true → (∀ value ∈ values, value.isWritable = true) →
        ∀ found, (merge surroundings given sources).outcome = .error found → found.kind = .badType)) ∧
    (∀ given entries sources tables, given? given = some entries → entries.IsMapping →
      List.Forall₂ (Provides surroundings) sources tables →
      ∃ merged, (merge surroundings given sources).outcome = .ok merged ∧
        ∀ name, merged.at? name =
          (entries.at? name).or (tables.findSome? fun table => table.at? name)) ∧
    ∀ modules options project origins, Draws surroundings modules options project origins →
      ((∀ entry ∈ origins.declared, entry.1.isWritable = true) →
        ∀ generators registry, project.generators modules = .ok generators →
        (registryOf surroundings generators).outcome = .ok registry →
        ∃ state pipeline, (prepare surroundings modules options).outcome = .ok state ∧
          state.pipeline = some pipeline ∧ pipeline.bindings.registry = registry) ∧
      ((∃ entry ∈ origins.declared, entry.1.isWritable = false) →
        (prepare surroundings modules options).outcome = .error (.escape .unwritable)) ∧
      ∀ state pipeline, (prepare surroundings modules options).outcome = .ok state →
        state.pipeline = some pipeline →
        (∀ name, pipeline.bindings.vars.at? name = origins.value? name) ∧
        pipeline.Sees origins.value? := by
  refine ⟨merge_append surroundings, fun given sources found => merge_eq_error_iff,
    fun given sources values returns => ⟨merge_fails_iff_of_returns returns,
      fun givenWritable writable found => badType_of_merge returns givenWritable writable⟩,
    fun given entries sources tables known mapping provides => at?_of_merge known mapping provides, ?_⟩
  intro modules options project origins draws
  refine ⟨?_, fun unnamed => (draws.unforeseen unnamed).outcome, ?_⟩
  · intro named generators registry loaded registered
    obtain ⟨pipeline, builds, same⟩ := draws.builds named loaded registered
    obtain ⟨state, prepared, made, -⟩ := builds.outcome
    exact ⟨state, pipeline, prepared, made, same⟩
  · intro state pipeline prepared made
    obtain ⟨pipeline', builds, made'⟩ := builds_of_prepared prepared
    cases made.symm.trans made'
    have values := draws.at?_of_builds builds
    exact ⟨values, sees_of_at? values⟩

/-- A project file with a variable that is nothing and one whose name is a number. -/
def layeredText : Text :=
  "vars:\n  a: file\n  b:\n  1: one\nscopes:\n- default\n- m:s\n".toList

def packageText : Text := "[project]\nname = \"pkg\"\n".toList

def layeredDeclared : Table := [(.text "a", .text "file"), (.text "b", .none), (.int 1, .text "one")]

def layeredContent : Table :=
  [(.text "vars", .table layeredDeclared), (.text "scopes", .list [.text "default", .text "m:s"])]

def layeredSurroundings : Surroundings :=
  { plainSurroundings [(".readmix.yaml", Utf8.encode layeredText),
      ("pyproject.toml", Utf8.encode packageText)] with
    readProject := fun text =>
      if text = layeredText then .ok (.table layeredContent) else .error .malformed
    readMetadata := fun text =>
      if text = packageText then
        .ok (.table [(.text "project", .table [(.text "name", .text "pkg")])])
      else .error ⟨.unreadableMetadata, "Invalid statement (at line 1, column 1)"⟩ }

/-- A source that would name the package too. -/
def otherTable : Table := [(.text "package_name", .text "other"), (.text "c", .int 7)]

def layeredModules : Modules :=
  Modules.flat [("m", [("s", .ok (.scope (.fixed "Source" (.ok (.table otherTable)))))])]

def layeredOptions : Options := { paths := ["doc.md"], definitions := ["a=1", " a =2=x"] }

def layeredOrigins : Origins :=
  ⟨["a=1", " a =2=x"], layeredDeclared, [[(.text "package_name", .text "pkg")], otherTable]⟩

def layeredProject : Project := ⟨Path.ofString ".readmix.yaml", layeredContent, true⟩

theorem load_layered :
    Project.load layeredSurroundings none = .ok layeredProject := by
  have opened : layeredSurroundings.files.read (Project.whereabouts layeredSurroundings none) =
      .ok (Utf8.encode layeredText) := ok_of_toOption (by decide +kernel)
  have decoded : Utf8.decodeInPieces (Utf8.encode layeredText) = .ok layeredText :=
    ok_of_toOption (by decide +kernel)
  have parsed : layeredSurroundings.readProject layeredText = .ok (.table layeredContent) := by
    simp [layeredSurroundings]
  rw [Project.load_of_read opened]
  unfold Project.contentOf
  simp only [decoded, parsed]
  rfl

theorem provides_package : Provides layeredSurroundings
    (.scope (.metadata (Path.ofString "pyproject.toml"))) [(.text "package_name", .text "pkg")] := by
  have there : layeredSurroundings.files.isFile (Path.ofString "pyproject.toml") = .ok true :=
    ok_of_toOption (by decide +kernel)
  have opened : layeredSurroundings.files.read (Path.ofString "pyproject.toml") =
      .ok (Utf8.encode packageText) := ok_of_toOption (by decide +kernel)
  have decoded : Utf8.decode (Utf8.encode packageText) = .ok packageText :=
    ok_of_toOption (by decide +kernel)
  refine ⟨⟨_, rfl, ?_⟩, List.pairwise_singleton ..⟩
  have parsed : layeredSurroundings.readMetadata packageText =
      .ok (.table [(.text "project", .table [(.text "name", .text "pkg")])]) := by
    simp [layeredSurroundings]
  unfold Scope.provide
  simp only [there, opened, Scope.read, decoded, parsed]
  with_unfolding_all rfl

theorem draws_layered :
    Draws layeredSurroundings layeredModules layeredOptions layeredProject layeredOrigins where
  given := rfl
  wellFormed := by
    unfold Malformed
    decide +kernel
  loaded := load_layered
  declares := by with_unfolding_all rfl
  provides := by
    refine ⟨some [.scope (.metadata (Path.ofString "pyproject.toml")),
      .scope (.fixed "Source" (.ok (.table otherTable)))], ?_, ?_⟩
    · with_unfolding_all rfl
    · refine .cons provides_package (.cons ⟨⟨_, rfl, rfl⟩, ?_⟩ .nil)
      unfold Table.IsMapping otherTable
      simp [Value.sameKey]

/-- A section whose name is a variable that no source provides. -/
def nowhereBlock : Block :=
  ⟨⟨⟨"rdmx", "section"⟩, [⟨"name", .variable "d", ⟨1, 20⟩⟩],
    "<!-- rdmx :section name:$d -->".toList, ⟨1, 11⟩⟩, "<!-- rdmx /:section -->".toList⟩

/-- The last definition comes before the project file, a variable that is nothing is one
nevertheless, and the package is named by the first of the sources. -/
theorem variables_take_precedence_layered : ∃ state pipeline,
    (prepare layeredSurroundings layeredModules layeredOptions).outcome = .ok state ∧
    state.pipeline = some pipeline ∧
    pipeline.bindings.vars.at? "a" = some (.text "2=x") ∧
    pipeline.bindings.vars.at? "b" = some .none ∧
    pipeline.bindings.vars.at? "1" = some (.text "one") ∧
    pipeline.bindings.vars.at? "package_name" = some (.text "pkg") ∧
    pipeline.bindings.vars.at? "c" = some (.int 7) ∧
    pipeline.bindings.vars.at? "d" = none ∧
    pipeline.bindings.call nowhereBlock = .error (.cause (.undefinedVariable (.text "d"))) := by
  obtain ⟨-, -, -, -, runs⟩ := variables_take_precedence layeredSurroundings
  obtain ⟨builds, -, sees⟩ := runs _ _ _ _ draws_layered
  have loaded : layeredProject.generators layeredModules = .ok [] := by with_unfolding_all rfl
  have declares : ((registryOf layeredSurroundings []).outcome.toOption.bind fun registry =>
      registry.action? nowhereBlock.start.name).isSome = true := by decide +kernel
  obtain ⟨action, declares⟩ := Option.isSome_iff_exists.mp declares
  obtain ⟨registry, registered, declared⟩ := Option.bind_eq_some_iff.mp declares
  have named : ∀ entry ∈ layeredOrigins.declared, entry.1.isWritable = true := by decide +kernel
  obtain ⟨state, pipeline, prepared, made, rfl⟩ := builds named [] registry loaded (ok_of_toOption registered)
  obtain ⟨values, seen⟩ := sees state pipeline prepared made
  have nowhere : layeredOrigins.value? "d" = none := by with_unfolding_all rfl
  have refused := (seen.refused nowhereBlock action "d" declared).mpr
    ⟨[], _, [], rfl, by simp, rfl, nowhere⟩
  refine ⟨state, pipeline, prepared, made, ?_, ?_, ?_, ?_, ?_, ?_, refused⟩
  all_goals
    rw [values]
    with_unfolding_all rfl

end Command
end Regen
