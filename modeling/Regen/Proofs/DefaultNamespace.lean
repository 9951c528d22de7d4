import Regen.Proofs.BlamedDirectives
import Regen.Proofs.ConstantContents
import Regen.Proofs.Respelling

/-! The default namespace. Markers without a namespace are about actions of the default
one, where a pipeline has the built-in generator, so that such a marker never lacks a
generator; and it can be written with the namespace as well. An empty default namespace
is the one exception: the markers then have another one. -/
namespace Regen

theorem Settings.actionNamespace_of_named {settings : Settings} (named : settings.defaultNamespace ≠ "") :
    settings.actionNamespace = settings.defaultNamespace := if_neg named

namespace Chunk
open Header

/-- A marker that leaves out the namespace. -/
def Short (settings : Settings) (raw : Text) : Prop :=
  ∃ (opener : Text) (lead : Lead) (tail : Text), opener ∈ settings.openers ∧
    raw = opener ++ (lead.text ++ ':' :: tail)

section Short
variable {settings : Settings} {file : String} {text raw opener header : Text} {chunks : List Chunk}
  {marker : Chunk} {said : Header}

/-- The header of such a marker begins with the colon, behind blanks and a slash. -/
theorem header_of_short (short : Short settings raw) (written : HeaderOf settings raw opener header) :
    ∃ (lead : Lead) (tail : Text), header = lead.text ++ ':' :: tail := by
  obtain ⟨opener', lead, tail, opens', rfl⟩ := short
  obtain ⟨opens, closer, lineBreak, whole, before, -, -, spelled⟩ := written
  have found := opener?_append opens' (lead.text ++ ':' :: tail)
  rw [whole, opener?_append opens] at found
  simp only [Option.some.injEq, Prod.mk.injEq, List.append_assoc] at found
  -- The closer begins with a dash, and there is none up to the colon.
  have begins : ∃ more, closer ++ lineBreak = '-' :: more := by
    rw [spelled]
    split <;> exact ⟨_, rfl⟩
  obtain ⟨more, dash⟩ := begins
  rw [dash] at found
  rcases List.append_eq_append_iff.mp found.2 with ⟨between, same, rest⟩ | ⟨between, rfl, rest⟩
  · cases between with
    | nil => cases rest
    | cons c between =>
      obtain ⟨rfl, -⟩ := List.cons.inj rest
      exact absurd (same ▸ List.mem_append_cons_self) lead.dashless
  · cases between with
    | nil => cases rest
    | cons c between =>
      obtain ⟨rfl, -⟩ := List.cons.inj rest
      exact ⟨lead, between, rfl⟩

/-- A marker without a namespace is about an action of the default one. -/
theorem namespaceName_of_short (scanned : scan settings file text = .ok chunks) (member : marker ∈ chunks)
    (short : Short settings marker.source) (meant : marker.header? = some said) :
    said.name.namespaceName = settings.actionNamespace := by
  obtain ⟨tokens, ⟨opener, header, written, read⟩, writes⟩ :=
    (scanFrom_scans settings file .start text).writes scanned member meant
  obtain ⟨lead, tail, rfl⟩ := header_of_short short written
  have symbols := symbols?_elsewhere (lead.text ++ ':' :: tail) marker.loc
  have told := said?_elsewhere settings.actionNamespace tokens
  rw [read] at symbols
  rw [parse_eq_ok_iff.mpr writes] at told
  have meant' : saidBy? settings.actionNamespace (lead.text ++ ':' :: tail) = some said.entries := by
    rw [saidBy?, ← symbols]
    exact told.symm
  have about := namespaceName_of_saidBy? meant'
  cases said <;> exact about

/-- A marker that is refused is at fault with its markup. -/
theorem markup_of_ofMarker {fault : Fault} {loc : Position}
    (refused : ofMarker settings file header raw loc = .error (.fault fault)) :
    ∃ cause, fault.cause = .markup cause raw := by
  unfold ofMarker at refused
  split at refused
  · rename_i failed _
    cases failed <;> cases refused
    exact ⟨_, rfl⟩
  · split at refused
    · rename_i failed _
      cases failed <;> cases refused <;> exact ⟨_, rfl⟩
    · cases refused
    · cases refused

theorem Scans.markup {fault : Fault} {loc : Position} {outcome : Except Halt (List Chunk)}
    (scans : Scans settings file loc text outcome) (failed : outcome = .error (.fault fault)) :
    ∃ cause raw, fault.cause = .markup cause raw := by
  induction scans with
  | plain => cases failed
  | unclosed =>
    cases failed
    exact ⟨_, _, rfl⟩
  | refused cut refuses =>
    cases failed
    obtain ⟨cause, same⟩ := markup_of_ofMarker refuses
    exact ⟨cause, _, same⟩
  | @marked _ _ outcome _ _ _ ih =>
    cases outcome with
    | ok chunks => cases failed
    | error halt =>
      cases failed
      exact ih rfl

end Short
end Chunk

/-- The start marker of every block is one of the chunks that spell it. -/
theorem Bracket.start_mem_of_spells {chunks : List Chunk} {nodes : List Node} {block : Block}
    (spells : Spells chunks nodes) (member : block ∈ Tree.postorderAll nodes) :
    .start block.start ∈ chunks := by
  induction spells with
  | nil => cases member
  | text _ ih => exact List.mem_cons_of_mem _ (ih member)
  | block _ _ _ within after =>
    rw [Tree.postorderAll_block, List.mem_append, List.mem_cons] at member
    rcases member with member | rfl | member
    · exact List.mem_cons_of_mem _ (List.mem_append_left _ (within member))
    · exact List.mem_cons_self
    · exact List.mem_cons_of_mem _ (List.mem_append_right _ (List.mem_cons_of_mem _ (after member)))

namespace Pipeline
open Chunk

section Unresolved
variable {surroundings : Surroundings} {plan : Plan} {pipeline : Pipeline} {file : Option String}
  {source : Text} {document : Document} {fault : Fault} {shown : Value}

/-- The default namespace of a pipeline has a generator, the built-in one unless another
takes its place. -/
theorem entry?_default (built : (build surroundings plan).outcome = .ok pipeline) :
    ∃ entry, pipeline.bindings.registry.entry? plan.settings.defaultNamespace = some entry ∧
      (plan.settings.defaultNamespace ∉ plan.generators.map Prod.fst →
        entry.generator = Builtin.generator surroundings.evaluate surroundings.installed) := by
  obtain ⟨registry, vars, registered, -, rfl⟩ := build_eq_ok_iff.mp built
  obtain ⟨next, first, later⟩ := Run.bind_eq_ok_iff.mp registered
  obtain ⟨generator, same, made⟩ := register_eq_ok_iff.mp first
  cases same
  obtain ⟨entry, compiled, known⟩ := Registry.entry?_register made
  obtain ⟨-, -, self, -⟩ := Registry.compile_eq_ok_iff.mp compiled
  rcases entry?_registerAll later plan.settings.defaultNamespace with
    ⟨generator, entry', member, found, -⟩ | ⟨-, found⟩
  · exact ⟨entry', found, fun absent => absurd (List.mem_map_of_mem member) absent⟩
  · rw [known, if_pos rfl] at found
    exact ⟨entry, found, fun _ => self⟩

/-- What is wrong with a document that cannot be read is its markup. -/
theorem markup_of_parse {limit : Nat} {settings : Settings}
    (unparsed : Document.parse limit settings file source = .error (.fault fault)) :
    ∃ cause raw, fault.cause = .markup cause raw := by
  unfold Document.parse at unparsed
  split at unparsed
  · rename_i halt stopped
    cases unparsed
    exact (scanFrom_scans settings _ .start source).markup stopped
  · unfold Document.ofChunks at unparsed
    split at unparsed
    · cases unparsed
    · rename_i failed _
      cases unparsed
      cases failed <;> exact ⟨_, _, rfl⟩

/-- What is reported of rendering is its depth, or what rendering itself reports. -/
theorem fault_of_stopAt {stop : RenderStop} (stopped : stopAt document stop = .fault fault) :
    (∃ levels, fault.cause = .tooDeep levels) ∨ stop = .halt (.fault fault) := by
  have deep (stopped : tooDeep document = .fault fault) : ∃ levels, fault.cause = .tooDeep levels := by
    cases stopped
    exact ⟨_, rfl⟩
  cases stop with
  | tooDeep => exact .inl (deep stopped)
  | halt halt =>
    cases halt with
    | fault found =>
      cases stopped
      exact .inr rfl
    | escape found =>
      rw [stopAt] at stopped
      split at stopped
      · exact .inl (deep stopped)
      · cases stopped

/-- A missing generator is reported at a block whose namespace has none. -/
theorem unresolved_of_transform (failed : (pipeline.transform file source).outcome = .error (.fault fault))
    (cause : fault.cause = .unknownNamespace shown) :
    ∃ document block,
      Document.parse pipeline.limits.nesting pipeline.settings file source = .ok document ∧
      block ∈ Tree.postorderAll document.nodes ∧ fault.loc = some block.start.loc ∧
      pipeline.bindings.registry.entry? block.start.name.namespaceName = none := by
  cases parsed : Document.parse pipeline.limits.nesting pipeline.settings file source with
  | error halt =>
    cases (outcome_transform_of_unparsed parsed).symm.trans failed
    obtain ⟨markup, raw, same⟩ := markup_of_parse parsed
    cases cause.symm.trans same
  | ok document =>
    cases bound : pipeline.bindings.resolveAll document.file document.nodes with
    | error halt =>
      cases (outcome_transform_of_refused parsed bound).symm.trans failed
      obtain ⟨before, block, after, refusal, order, -, refuses, same⟩ := Bindings.resolveAll_eq_error_iff.mp bound
      have member : block ∈ Tree.postorderAll document.nodes := by
        rw [order]
        exact List.mem_append_cons_self
      refine ⟨document, block, rfl, member, ?_⟩
      cases refuses with
      | namespaceUnknown unknown =>
        cases same
        exact ⟨rfl, unknown⟩
      | _ =>
        cases same
        try cases cause
    | ok trees =>
      rw [outcome_transform_of_bound parsed bound] at failed
      cases rendered :
          (pipeline.bindings.renderAll document.file pipeline.limits.levels [] trees).outcome with
      | ok siblings => simp [rendered] at failed
      | error stop =>
        rw [rendered] at failed
        rcases fault_of_stopAt (Except.error.inj failed) with ⟨levels, about⟩ | rfl
        · rw [about] at cause
          cases cause
        · obtain ⟨turns, ran, -⟩ :=
            Bindings.pass_of_renderAll pipeline.bindings document.file pipeline.limits.levels [] trees
          obtain ⟨-, -, -, turn, -, reply, -, settled⟩ := ran.halts_iff.mp rendered
          cases (settle_eq_fault_iff.mp settled).1 <;> cases cause

/-- A block of a document whose start marker leaves out the namespace is about an action
of the default one. -/
theorem namespaceName_of_short_block {limit : Nat} {settings : Settings} {block : Block}
    (named : settings.defaultNamespace ≠ "")
    (parsed : Document.parse limit settings file source = .ok document)
    (member : block ∈ Tree.postorderAll document.nodes) (short : Short settings block.start.raw) :
    block.start.name.namespaceName = settings.defaultNamespace := by
  obtain ⟨chunks, scanned, spells⟩ := Document.spells_of_parse parsed
  rw [← Settings.actionNamespace_of_named named]
  have meant : (Chunk.start block.start).header? = some (.start block.start.name block.start.params) := rfl
  exact namespaceName_of_short scanned (Bracket.start_mem_of_spells spells member) short meant

/-- A default namespace that is not empty is the same everywhere. A marker that leaves out
the namespace is about an action of the default one; a pipeline has a generator there, the
built-in one unless another takes its place, so that no such block is reported to have
none; and the namespace can be put in front of the colon of any markers, at starts and at
ends, with no change to what the document says. -/
theorem default_namespace_everywhere (plan : Plan) (named : plan.settings.defaultNamespace ≠ "") :
    (∀ file text chunks, scan plan.settings file text = .ok chunks → ∀ marker ∈ chunks,
      Short plan.settings marker.source → ∀ said, marker.header? = some said →
      said.name.namespaceName = plan.settings.defaultNamespace) ∧
    (∀ surroundings pipeline, (build surroundings plan).outcome = .ok pipeline →
      (∃ entry, pipeline.bindings.registry.entry? plan.settings.defaultNamespace = some entry ∧
        (plan.settings.defaultNamespace ∉ plan.generators.map Prod.fst →
          entry.generator = Builtin.generator surroundings.evaluate surroundings.installed)) ∧
      (∀ file text document block shown,
        Document.parse pipeline.limits.nesting pipeline.settings file text = .ok document →
        block ∈ Tree.postorderAll document.nodes → Short plan.settings block.start.raw →
        pipeline.bindings.call block ≠ .error (.cause (.unknownNamespace shown))) ∧
      ∀ file text fault shown, (pipeline.transform file text).outcome = .error (.fault fault) →
        fault.cause = .unknownNamespace shown → ∃ document block,
          Document.parse pipeline.limits.nesting pipeline.settings file text = .ok document ∧
          block ∈ Tree.postorderAll document.nodes ∧ fault.loc = some block.start.loc ∧
          ¬Short plan.settings block.start.raw) ∧
    ∀ name : Header.Name, name.word = plan.settings.defaultNamespace → ∀ text text',
      Respelled plan.settings name text text' → ∀ limit file,
      (Document.parse limit plan.settings file text').toOption.map Document.wording =
        (Document.parse limit plan.settings file text).toOption.map Document.wording := by
  have action := Settings.actionNamespace_of_named named
  refine ⟨?_, ?_, ?_⟩
  · intro file text chunks scanned marker member short said meant
    rw [← action]
    exact namespaceName_of_short scanned member short meant
  · intro surroundings pipeline built
    have settings : pipeline.settings = plan.settings := by
      obtain ⟨-, -, -, -, rfl⟩ := build_eq_ok_iff.mp built
      rfl
    obtain ⟨entry, known, builtin⟩ := entry?_default built
    refine ⟨⟨entry, known, builtin⟩, ?_, ?_⟩
    · intro file text document block shown parsed member short refused
      rw [settings] at parsed
      have about := namespaceName_of_short_block named parsed member short
      cases Bindings.call_eq_error_iff.mp refused with
      | namespaceUnknown unknown =>
        rw [about, known] at unknown
        cases unknown
    · intro file text fault shown failed cause
      obtain ⟨document, block, parsed, member, loc, unknown⟩ := unresolved_of_transform failed cause
      refine ⟨document, block, parsed, member, loc, fun short => ?_⟩
      rw [settings] at parsed
      rw [namespaceName_of_short_block named parsed member short, known] at unknown
      cases unknown
  · intro name same text text' respelled limit file
    exact Document.parse_respelled (same.trans action.symm) respelled limit file

/-- A plan with a default namespace and no other generators. -/
def planIn (namespaceName : String) : Plan where
  settings := { Settings.standard with defaultNamespace := namespaceName }
  generators := []
  vars := .none
  scopes := some []
  backupEnabled := some false
  backupDirectory := none
  moment := none

def shortText : Text := "<!-- rdmx :section name:x -->a<!-- rdmx /:section -->".toList

def namedText : Text := "<!-- rdmx docs:section name:x -->a<!-- rdmx /:section -->".toList

theorem exists_docs : ∃ name : Header.Name, name.text = "docs".toList ∧ name.word = "docs" :=
  ⟨⟨⟨'d', ['o', 'c', 's'], rfl, rfl⟩, by decide, by decide⟩, rfl, rfl⟩

/-- The start marker says the same with the namespace, and the end marker need not have it. -/
theorem default_namespace_everywhere_docs : "docs" ≠ "" ∧
    (∃ pipeline, (build emptySurroundings (planIn "docs")).outcome = .ok pipeline ∧
      ∃ entry, pipeline.bindings.registry.entry? "docs" = some entry ∧
        entry.generator = Builtin.generator emptySurroundings.evaluate []) ∧
    ∃ document, Document.parse 1 (planIn "docs").settings none shortText = .ok document ∧
      ∃ document', Document.parse 1 (planIn "docs").settings none namedText = .ok document' ∧
        document'.wording = document.wording := by
  obtain ⟨-, pipelines, respelling⟩ := default_namespace_everywhere (planIn "docs") (by decide)
  obtain ⟨name, spelled, word⟩ := exists_docs
  have respelled : Respelled (planIn "docs").settings name shortText namedText := by
    have stands : Pieces.Stands (planIn "docs").settings
        ⟨"<!-- rdmx ".toList, ":section name:x ".toList, "-->".toList, []⟩
        "a<!-- rdmx /:section -->".toList :=
      ⟨by decide, closes_of_untilCloser (by decide +kernel), ⟨.inl rfl, by decide⟩⟩
    have added := @Respelled.named _ name [] _ _ "section name:x ".toList _ _ _ (.start ⟨[], rfl⟩) (clear_nil _)
      stands .same
    rw [spelled] at added
    exact added
  have built : (build emptySurroundings (planIn "docs")).outcome.toBool = true := by decide +kernel
  have parsed : (Document.parse 1 (planIn "docs").settings none shortText).toBool = true := by decide +kernel
  obtain ⟨pipeline, built⟩ := exists_ok_of_toBool built
  obtain ⟨document, parsed⟩ := exists_ok_of_toBool parsed
  obtain ⟨⟨entry, known, builtin⟩, -, -⟩ := pipelines emptySurroundings pipeline built
  have same := respelling name word shortText namedText respelled 1 none
  rw [parsed] at same
  obtain ⟨document', parsed', alike⟩ := Option.map_eq_some_iff.mp same
  exact ⟨by decide, ⟨pipeline, built, entry, known, builtin (by decide)⟩, document, parsed, document',
    ok_of_toOption parsed', alike⟩

/-- With an empty default namespace the built-in generator is registered under the empty
name, and a marker that leaves out the namespace has no generator. -/
theorem short_block_unresolved : ∃ pipeline, (build emptySurroundings (planIn "")).outcome = .ok pipeline ∧
    (pipeline.bindings.registry.entry? "").isSome ∧
    ∃ fault, (pipeline.transform none shortText).outcome = .error (.fault fault) ∧
      fault.cause.kind = "unresolved_generator" ∧ fault.loc = some ⟨1, 11⟩ := by
  have ran : ((build emptySurroundings (planIn "")).outcome.toOption.map fun pipeline =>
      ((pipeline.bindings.registry.entry? "").isSome,
        (fault? (pipeline.transform none shortText).outcome).map fun fault =>
          (fault.cause.kind, fault.loc))) =
      some (true, some ("unresolved_generator", some ⟨1, 11⟩)) := by decide +kernel
  obtain ⟨pipeline, built, ends⟩ := Option.map_eq_some_iff.mp ran
  obtain ⟨registered, failed⟩ := Prod.mk.inj ends
  obtain ⟨fault, stopped, known⟩ := Option.map_eq_some_iff.mp failed
  obtain ⟨kind, loc⟩ := Prod.mk.inj known
  exact ⟨pipeline, ok_of_toOption built, registered, fault, eq_error_of_fault? stopped, kind, loc⟩

end Unresolved
end Pipeline
end Regen
