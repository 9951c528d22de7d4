import Regen.Backup
import Regen.Rendering
import Regen.Scope
import Regen.Stamp

/-! The pipeline: a document is read, all its blocks are bound, and only then are
they rendered. A pipeline is put together once and used for any number of
documents. -/
namespace Regen

/-- What a pipeline is put together from. -/
structure Plan where
  settings : Settings
  generators : List (String × Supplied)
  vars : Value
  /-- Sources of variables; without them the metadata of the project. -/
  scopes : Option (List Supplied)
  backupEnabled : Option Bool
  backupDirectory : Option String
  moment : Option Moment

structure Pipeline where
  settings : Settings
  limits : Limits
  bindings : Bindings
  /-- The directory for the backups of the run, unless there are none. -/
  backups : Option Path

namespace Pipeline

/-- Registers an object as a generator. -/
def register (registry : Registry) (namespaceName : String) : Supplied → Run Escape Registry
  | .generator generator =>
    match registry.register namespaceName generator with
    | .error fault => .fail fault.toEscape
    | .ok after =>
      let actions := ((after.entry? namespaceName).map fun entry => entry.actions.length).getD 0
      (Run.record (.registered generator.shown namespaceName actions)).bind fun _ => .pure after
  | other => .fail (RegistryFault.notGenerator namespaceName other.asValue).toEscape

/-- Only a generator can be registered, and it is once its catalogue is fine. -/
theorem register_eq_ok_iff {registry next : Registry} {namespaceName : String}
    {supplied : Supplied} :
    (register registry namespaceName supplied).outcome = .ok next ↔
      ∃ generator, supplied = .generator generator ∧
        registry.register namespaceName generator = .ok next := by
  cases supplied with
  | generator generator =>
    simp only [register, Supplied.generator.injEq, exists_eq_left']
    cases registry.register namespaceName generator with
    | error fault => simp
    | ok after => simp [Except.bind]
  | _ => simp [register]

/-- Registers objects as generators one after the other. -/
def registerAll (registry : Registry) : List (String × Supplied) → Run Escape Registry
  | [] => .pure registry
  | (namespaceName, supplied) :: more =>
    (register registry namespaceName supplied).bind fun registry => registerAll registry more

/-- The sources of variables that a plan names. -/
def scopesOf (surroundings : Surroundings) (plan : Plan) : List Supplied :=
  plan.scopes.getD [.scope (.metadata (Path.ofString surroundings.settings.metadataFile))]

/-- The directory for the backups of a run, where a plan wants them. -/
def backupsOf (surroundings : Surroundings) (plan : Plan) : Option Path :=
  if plan.backupEnabled.getD plan.settings.backupEnabled then
    let given := plan.backupDirectory.getD ""
    let root := if given = "" then plan.settings.backupRoot else given
    let stamp := Stamp.write (plan.moment.getD surroundings.now) plan.settings.stampFormat
    some ((Path.ofString root).join (Path.ofString stamp))
  else none

/-- Puts a pipeline together. The built-in generator has the default namespace
unless another one takes it. -/
def build (surroundings : Surroundings) (plan : Plan) : Run Escape Pipeline :=
  let builtin := Builtin.generator surroundings.evaluate surroundings.installed
  (registerAll [] ((plan.settings.defaultNamespace, .generator builtin) :: plan.generators)).bind
    fun registry =>
      (Variables.merge surroundings plan.vars (scopesOf surroundings plan)).bind fun vars =>
        .pure ⟨plan.settings, surroundings.limits, ⟨registry, vars⟩, backupsOf surroundings plan⟩

/-- A pipeline that is built has all generators in its registry and all variables merged. -/
theorem build_eq_ok_iff {surroundings : Surroundings} {plan : Plan} {pipeline : Pipeline} :
    (build surroundings plan).outcome = .ok pipeline ↔ ∃ registry vars,
      (registerAll [] ((plan.settings.defaultNamespace,
        .generator (Builtin.generator surroundings.evaluate surroundings.installed)) ::
          plan.generators)).outcome = .ok registry ∧
      (Variables.merge surroundings plan.vars (scopesOf surroundings plan)).outcome = .ok vars ∧
      pipeline =
        ⟨plan.settings, surroundings.limits, ⟨registry, vars⟩, backupsOf surroundings plan⟩ := by
  constructor
  · intro built
    obtain ⟨registry, registered, rest⟩ := Run.bind_eq_ok_iff.mp built
    obtain ⟨vars, merged, done⟩ := Run.bind_eq_ok_iff.mp rest
    cases done
    exact ⟨registry, vars, registered, merged, rfl⟩
  · rintro ⟨registry, vars, registered, merged, rfl⟩
    exact Run.bind_eq_ok_iff.mpr
      ⟨registry, registered, Run.bind_eq_ok_iff.mpr ⟨vars, merged, rfl⟩⟩

/-- What a pipeline is shown as. -/
def shown (pipeline : Pipeline) : String :=
  let namespaces := pipeline.bindings.registry.namespaces.map Value.text
  s!"Readmix(namespaces={(Value.list namespaces).shown})"

/-- The report that a document nests its blocks too deeply to be rendered. -/
def tooDeep (document : Document) : Halt :=
  let (root, depth) := Tree.deepest document.nodes
  .fault ⟨.tooDeep (.int depth), root.map fun block => block.start.loc, some document.file⟩

/-- A document as read, in two passes over its markup. -/
def parse (pipeline : Pipeline) (file : String) (source : Text) : Run Halt Document :=
  (Run.ofExcept (Chunk.scan pipeline.settings file source)).bind fun chunks =>
    (Run.record (.scanned chunks.length file)).bind fun _ =>
      .ofExcept (Document.ofChunks pipeline.limits.nesting file chunks)

/-- Why rendering a document stops short, as it is reported: whatever goes deeper than
there is room for is put down to the nesting of blocks. -/
def stopAt (document : Document) : RenderStop → Halt
  | .tooDeep => tooDeep document
  | .halt (.fault fault) => .fault fault
  | .halt (.escape found) => if found.kind = .recursion then tooDeep document else .escape found

/-- The text of a document with its blocks rendered. -/
def render (pipeline : Pipeline) (document : Document) : Run Halt Text :=
  (Run.ofExcept (pipeline.bindings.resolveAll document.file document.nodes)).bind fun trees =>
    (Run.record (.resolved trees.length)).bind fun _ =>
      ((pipeline.bindings.renderAll document.file pipeline.limits.levels [] trees).bind
        (Bindings.output document.file)).mapError (stopAt document)

/-- A document's text with every block generated anew. -/
def transform (pipeline : Pipeline) (file : Option String) (source : Text) : Run Halt Text :=
  (pipeline.parse (Document.nameIn pipeline.settings file) source).bind pipeline.render

end Pipeline
end Regen
