import Regen.Command.State
import Regen.Update

/-! The command that updates files. A run finds out about the project, defines
variables, puts a pipeline together and updates one file after the other;
a file that cannot be updated is reported and does not keep the others back. -/
namespace Regen.Command

/-- A fault of a project where it stops the run. -/
def stopAt : ProjectStop → Stop
  | .fault fault => .complaint ("Error: " ++ fault.message)
  | .escape found => .escape found

/-- Loads the project. -/
def checkEnvironment (surroundings : Surroundings) (state : State) : Run Stop State := do
  Run.record .title
  Run.record .checking
  let project ← Run.ofExcept ((Project.load surroundings state.config).mapError stopAt)
  Run.record (.configured project.shown)
  return { state with project := some project, environmentOk := true }

/-- The variable that a definition sets, and its value. -/
def readDefinition (definition : String) : Except Stop (String × Value) :=
  let invalid :=
    Stop.complaint s!"Error: invalid variable definition {quote definition}, expected KEY=VALUE"
  match Text.cutAt '=' definition.toList with
  | (_, none) => .error invalid
  | (key, some value) =>
    if (Text.strip key).isEmpty then .error invalid
    else .ok (String.ofList (Text.strip key), .text (String.ofList value))

/-- The variables with definitions entered one after the other. -/
def defineAll (vars : Entries) : List String → Except Stop Entries
  | [] => .ok vars
  | definition :: more =>
    match readDefinition definition with
    | .error stop => .error stop
    | .ok (name, value) => defineAll (vars.set name value) more

/-- The variables that a project declares; there are none without a project. -/
def declared : Option Project → Except Stop Entries
  | none => .ok []
  | some project => project.vars.mapError stopAt

/-- Defines the variables of the project, then those of the command line. -/
def defineVariables (state : State) : Run Stop State := do
  let vars ← Run.ofExcept (declared state.project)
  let vars ← Run.ofExcept (defineAll vars state.definitions)
  Run.record (.defined ((vars.map Prod.fst).mergeSort (· ≤ ·)))
  return { state with vars := vars }

/-- Whether a failure to put a pipeline together is about how it is configured. -/
def isConfiguration (kind : EscapeKind) : Bool :=
  match kind with
  | .badValue => true
  | .badType => true
  | .undecodable => true
  | .unreadableMetadata => true
  | .badProject => true
  | _ => false

/-- A complaint about the configuration. -/
def misconfigured (message : String) : Stop := .complaint ("Configuration error: " ++ message)

/-- A failure to put a pipeline together, where it stops the run. -/
def stopBuilding (found : Escape) : Stop :=
  if isConfiguration found.kind then misconfigured found.message else .escape found

/-- A failure to load what a project declares for its pipeline, where it stops the run. -/
def stopPlanning : ProjectStop → Stop
  | .fault fault => misconfigured fault.message
  | .escape found => stopBuilding found

/-- What the pipeline of a run is put together from. -/
def plan (surroundings : Surroundings) (modules : Modules) (state : State) :
    Except ProjectStop Plan := do
  let generators ← match state.project with
    | none => pure []
    | some project => project.generators modules
  let scopes ← match state.project with
    | none => pure none
    | some project => project.scopes surroundings.settings modules
  return {
    settings := surroundings.settings.alone
    generators := generators
    vars := Value.ofEntries state.vars
    scopes := scopes
    backupEnabled := state.backup
    backupDirectory := state.backupDirectory
    moment := none }

/-- Puts the pipeline together. -/
def buildPipeline (surroundings : Surroundings) (modules : Modules) (state : State) :
    Run Stop State := do
  let plan ← Run.ofExcept ((plan surroundings modules state).mapError stopPlanning)
  let pipeline ← (Pipeline.build surroundings plan).mapError stopBuilding
  Run.record (.built pipeline.shown)
  return { state with pipeline := some pipeline }

/-- What a run does before it turns to the files. -/
def prepare (surroundings : Surroundings) (modules : Modules) (options : Options) :
    Run Stop State :=
  Run.through (State.ofOptions options)
    [checkEnvironment surroundings, defineVariables, buildPipeline surroundings modules]

/-- The files after several updates, and the report on each path. -/
structure Updates where
  files : FileSystem
  run : Run Escape (Assoc String (Option String))

/-- Updates files one after the other, adding to the reports so far. -/
def updateAll (pipeline : Pipeline) (files : FileSystem) (results : Assoc String (Option String)) :
    List String → Updates
  | [] => ⟨files, .pure results⟩
  | path :: more =>
    let updated := pipeline.update files path
    match updated.run.outcome with
    | .error (.escape found) => ⟨updated.files, ⟨updated.run.events, .error found⟩⟩
    | .error (.fault fault) =>
      let rest := updateAll pipeline updated.files (results.set path (some fault.message)) more
      ⟨rest.files, ⟨updated.run.events ++ rest.run.events, rest.run.outcome⟩⟩
    | .ok _ =>
      let rest := updateAll pipeline updated.files (results.set path none) more
      ⟨rest.files, ⟨updated.run.events ++ rest.run.events, rest.run.outcome⟩⟩

/-- The reports on files that were not updated. -/
def failures (results : Assoc String (Option String)) : List String :=
  results.filterMap Prod.snd

/-- The state with the exit code that the reports amount to. -/
def conclude (state : State) (results : Assoc String (Option String)) : State :=
  { state with
    results := results
    exitCode := if (failures results).isEmpty then 0 else 1 }

/-- How a run of the program ends: its status, unless a failure leaves the
program altogether, with what it wrote down meanwhile. -/
structure Ended where
  files : FileSystem
  status : Except Escape Int
  output : String
  complaints : List String
  log : List String

/-- The end of a run on files with options. -/
def finish (surroundings : Surroundings) (journal : Journal) (state : State) (events : List Event) :
    Ended :=
  match state.pipeline with
  | none => ⟨surroundings.files, .ok state.exitCode, "", [], journal.messages events⟩
  | some pipeline =>
    let updates := updateAll pipeline surroundings.files [] state.paths
    let events := events ++ updates.run.events
    match updates.run.outcome with
    | .error found => ⟨updates.files, .error found, "", [], journal.messages events⟩
    | .ok results =>
      let failed := failures results
      let events := events ++ [.finished (results.length - failed.length) results.length]
      ⟨updates.files, .ok (conclude state results).exitCode, "",
        failed.map ("Error: " ++ ·), journal.messages events⟩

/-- Runs the command with options. -/
def runWith (surroundings : Surroundings) (modules : Modules) (options : Options) : Ended :=
  let journal : Journal := { Journal.idle with verbosity := some options.verbosity }
  let prepared := prepare surroundings modules options
  match prepared.outcome with
  | .error (.complaint text) =>
    ⟨surroundings.files, .ok 1, "", [text], journal.messages prepared.events⟩
  | .error (.escape found) =>
    ⟨surroundings.files, .error found, "", [], journal.messages prepared.events⟩
  | .ok state => finish surroundings journal state prepared.events

/-- Runs the program on the words of a command line. -/
def run (surroundings : Surroundings) (modules : Modules) (words : List String) : Ended :=
  match Options.read words with
  | .error (.shows text) => ⟨surroundings.files, .ok 0, text, [], []⟩
  | .error (.faulty program fault) =>
    ⟨surroundings.files, .ok 2, "", [s!"{program}: error: {fault.message}"], []⟩
  | .error (.escape found) => ⟨surroundings.files, .error found, "", [], []⟩
  | .ok options => runWith surroundings modules options

end Regen.Command
