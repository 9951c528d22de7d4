import Regen.Proofs.FilledDocuments

/-! Generators that always answer with the same content. A second run finds what the
first has written, but for one thing: a header without a line break of its own takes
the one that a content begins with, so that the content is written once more after it.
After that all headers have their line break, and no further run changes anything. -/
namespace Regen

/-- Scripts that answer with a content, whatever their children come to. -/
inductive Script.Constant (content : Text) : Script → Prop
  | reply : Constant content (.reply (.content content))
  | withChildren {next : Text → Script} : (∀ text, Constant content (next text)) →
    Constant content (.withChildren next)

/-- Generators that answer every call with a content. -/
def Generator.Constant (content : Text) (generator : Generator) : Prop :=
  ∀ action params context, (generator.generate action params context).Constant content

namespace Script
variable {content : Text} {script : Script}

theorem Constant.answer (constant : Constant content script) (text : Text) :
    script.answer text = .content content := by
  induction constant with
  | reply => rfl
  | withChildren _ ih => exact ih text

theorem Constant.not_transparent (constant : Constant content script) : ¬script.IsTransparent := by
  intro transparent
  have same := (constant.answer (' ' :: content)).symm.trans (transparent (' ' :: content))
  simp at same

/-- A constant script that ends at all ends with its content. -/
theorem Constant.eq_of_run {ε : Type} {children : Run ε Text} {text : Text}
    (constant : Constant content script)
    (ran : (script.run children).outcome = .ok (.content text)) : text = content := by
  induction constant with
  | reply =>
    cases ran
    rfl
  | withChildren _ ih =>
    obtain ⟨inner, -, later⟩ := Run.bind_eq_ok_iff.mp ran
    exact ih inner later

end Script

namespace Bindings

/-- What is called hands on the text of its children if its name says so, and has a
fixed content otherwise. -/
structure Steady (bindings : Bindings) (uses : Header.ActionName → Prop)
    (opens : Header.ActionName → Bool) (content : Text) : Prop where
  opened : ∀ context : Context, uses context.call.name → opens context.call.name = true →
    (bindings.script context).IsTransparent
  filled : ∀ context : Context, uses context.call.name → ¬opens context.call.name = true →
    (bindings.script context).Constant content

/-- Generators that need no children at all, or find them rendered. -/
def Answering (bindings : Bindings) (uses : Header.ActionName → Prop)
    (opens : Header.ActionName → Bool) (content : Text) (levels room : Nat) : Prop :=
  (∀ context : Context, uses context.call.name → ¬opens context.call.name = true →
    bindings.script context = .reply (.content content)) ∨ levels ≤ room

section Steady
variable {bindings : Bindings} {uses : Header.ActionName → Prop} {opens : Header.ActionName → Bool}
  {content : Text} {file : String} {room : Nat} {previous : List Sibling}
  {trees trees' body following : List (Tree Call)} {nodes nodes' : List Node} {call : Call}

theorem Steady.constant (steady : bindings.Steady uses opens content)
    (used : uses call.block.start.name) (closed : ¬opens call.block.start.name = true) :
    (bindings.script (bindings.contextOf file previous call body following)).Constant content :=
  steady.filled (bindings.contextOf file previous call body following) used closed

theorem Steady.transparent_iff (steady : bindings.Steady uses opens content)
    (used : uses call.block.start.name) :
    (bindings.script (bindings.contextOf file previous call body following)).IsTransparent ↔
      opens call.block.start.name = true := by
  constructor
  · intro transparent
    by_contra closed
    exact (steady.constant used closed).not_transparent transparent
  · exact steady.opened (bindings.contextOf file previous call body following) used

/-- What is regenerated is filled with the content. -/
theorem Regenerated.refilled (steady : bindings.Steady uses opens content)
    (regenerated : Regenerated bindings file room previous trees trees')
    (resolved : Resolved bindings nodes trees)
    (used : ∀ block ∈ Tree.postorderAll nodes, uses block.start.name) :
    Tree.relabelAll Call.block trees' = Node.refillAll opens content nodes := by
  induction regenerated generalizing nodes with
  | nil =>
    cases resolved
    rfl
  | text _ ih =>
    cases resolved with
    | text resolved =>
      rw [Tree.relabelAll_text, Node.refillAll_text, ih resolved used]
  | @kept room previous call body body' more more' transparent _ _ inside outside =>
    cases resolved with
    | block called resolvedBody resolvedMore =>
      obtain rfl := block_of_call called
      simp only [Tree.postorderAll_block, List.forall_mem_append, List.forall_mem_cons] at used
      rw [steady.transparent_iff used.2.1] at transparent
      rw [Tree.relabelAll_block, Node.refillAll_opened transparent, inside resolvedBody used.1,
        outside resolvedMore used.2.2]
  | @replaced room previous call found body more more' opaque' ran _ outside =>
    cases resolved with
    | block called resolvedBody resolvedMore =>
      obtain rfl := block_of_call called
      simp only [Tree.postorderAll_block, List.forall_mem_append, List.forall_mem_cons] at used
      rw [steady.transparent_iff used.2.1] at opaque'
      obtain rfl := (steady.constant used.2.1 opaque').eq_of_run ran
      rw [Tree.relabelAll_block, Node.refillAll_filled opaque', Tree.relabelAll_ofText,
        outside resolvedMore used.2.2]

/-- Children that are a text can be rendered where anything can. -/
theorem outcome_childrenText_ofText (bindings : Bindings) (file : String) (room : Nat) (text : Text) :
    (bindings.childrenText file (room + 1) (Tree.ofText text)).outcome = .ok text := by
  have rendered : (bindings.renderAll file room [] (Tree.ofText text)).outcome =
      .ok ((Tree.ofText text).map Sibling.ofTree) := by
    cases text with
    | nil => rfl
    | cons c text => exact renderAll_of_regenerated (.text .nil)
  rw [childrenText, Run.outcome_bind, rendered]
  simp [Except.bind, Sibling.outputAll_map_ofTree]

/-- A block is filled again wherever it was, as the text in it can be rendered. -/
theorem Steady.run_again (steady : bindings.Steady uses opens content)
    (used : uses call.block.start.name) (closed : ¬opens call.block.start.name = true) {levels : Nat}
    (answering : bindings.Answering uses opens content (levels + 1) room) (text : Text) :
    ((bindings.script (bindings.contextOf file previous call (Tree.ofText text) following)).run
      (bindings.childrenText file room (Tree.ofText text))).outcome = .ok (.content content) := by
  rcases answering with atOnce | shallow
  · rw [atOnce (bindings.contextOf file previous call (Tree.ofText text) following) used closed]
    rfl
  · obtain ⟨below, rfl⟩ : ∃ below, room = below + 1 := ⟨room - 1, by omega⟩
    rw [Script.outcome_run_of_ok (outcome_childrenText_ofText ..),
      (steady.constant used closed).answer]

/-- What has been filled and read can be regenerated. -/
theorem Regenerated.rerun (steady : bindings.Steady uses opens content)
    (regenerated : Regenerated bindings file room previous trees trees')
    (resolved : Resolved bindings nodes trees)
    (used : ∀ block ∈ Tree.postorderAll nodes, uses block.start.name)
    (answering : bindings.Answering uses opens content (Tree.heightAll nodes) room)
    (same : Tree.relabelAll Block.reading nodes' =
      Tree.relabelAll Block.reading (Node.rereadAll opens content nodes)) :
    ∃ again, Resolved bindings nodes' again ∧
      ∀ previous', ∃ again', Regenerated bindings file room previous' again again' := by
  induction regenerated generalizing nodes nodes' with
  | nil =>
    cases resolved
    rw [Tree.eq_nil_of_relabelAll same]
    exact ⟨[], .nil, fun _ => ⟨[], .nil⟩⟩
  | text _ ih =>
    cases resolved with
    | text resolved =>
      obtain ⟨rest, rfl, later⟩ := Tree.eq_text_of_relabelAll same
      obtain ⟨again, bound, done⟩ := ih resolved used answering later
      refine ⟨_, .text bound, fun previous' => ?_⟩
      obtain ⟨again', done⟩ := done (previous' ++ [.text _])
      exact ⟨_, .text done⟩
  | @kept room previous call body body' more more' transparent _ _ inside outside =>
    cases resolved with
    | @block _ _ inner rest _ _ called resolvedBody resolvedMore =>
      obtain rfl := block_of_call called
      simp only [Tree.postorderAll_block, List.forall_mem_append, List.forall_mem_cons] at used
      rw [steady.transparent_iff used.2.1] at transparent
      rw [Node.rereadAll_opened transparent] at same
      obtain ⟨block', inner', rest', rfl, read, within, later⟩ := Tree.eq_block_of_relabelAll same
      rw [Tree.heightAll_block] at answering
      have low : bindings.Answering uses opens content (Tree.heightAll inner) room :=
        answering.imp_right (by omega)
      have low' : bindings.Answering uses opens content (Tree.heightAll rest) (room + 1) :=
        answering.imp_right (by omega)
      obtain ⟨bodyAgain, boundBody, doneBody⟩ := inside resolvedBody used.1 low within
      obtain ⟨moreAgain, boundMore, doneMore⟩ := outside resolvedMore used.2.2 low' later
      have named : block'.start.name = call.block.start.name := congrArg Reading.name read
      refine ⟨_, .block (call_again called read) boundBody boundMore, fun previous' => ?_⟩
      obtain ⟨bodyAgain', doneBody⟩ := doneBody []
      obtain ⟨moreAgain', doneMore⟩ := doneMore (previous' ++
        [.ofTree (.block { call with block := block' } bodyAgain')])
      refine ⟨_, .kept ((steady.transparent_iff ?_).mpr ?_) doneBody doneMore⟩
      · rw [named]
        exact used.2.1
      · rw [named]
        exact transparent
  | @replaced room previous call found body more more' opaque' ran _ outside =>
    cases resolved with
    | @block _ _ inner rest _ _ called resolvedBody resolvedMore =>
      obtain rfl := block_of_call called
      simp only [Tree.postorderAll_block, List.forall_mem_append, List.forall_mem_cons] at used
      rw [steady.transparent_iff used.2.1] at opaque'
      rw [Node.rereadAll_filled opaque'] at same
      obtain ⟨block', inner', rest', rfl, read, within, later⟩ := Tree.eq_block_of_relabelAll same
      rw [Tree.relabelAll_ofText] at within
      obtain rfl := Tree.eq_ofText_of_relabelAll within
      rw [Tree.heightAll_block] at answering
      have here : bindings.Answering uses opens content (Tree.heightAll inner + 1) room :=
        answering.imp_right (by omega)
      have low : bindings.Answering uses opens content (Tree.heightAll rest) room :=
        answering.imp_right (by omega)
      obtain ⟨moreAgain, boundMore, doneMore⟩ := outside resolvedMore used.2.2 low later
      have named : block'.start.name = call.block.start.name := congrArg Reading.name read
      have calledAgain : bindings.call block' = .ok { call with block := block' } := by
        rw [call_of_directive named (congrArg Reading.params read), called]
        rfl
      refine ⟨_, .block calledAgain (resolved_ofText _) boundMore, fun previous' => ?_⟩
      obtain ⟨moreAgain', doneMore⟩ := doneMore
        (previous' ++ [.block { call with block := block' } content])
      have used' : uses block'.start.name := by
        rw [named]
        exact used.2.1
      have closed : ¬opens block'.start.name = true := by
        rw [named]
        exact opaque'
      exact ⟨_, .replaced (mt (steady.transparent_iff used').mp closed)
        (steady.run_again used' closed here _) doneMore⟩

end Steady
end Bindings
namespace Pipeline
open Bindings

section Rerun
variable {pipeline : Pipeline} {uses : Header.ActionName → Prop} {opens : Header.ActionName → Bool}
  {content : Text} {file : Option String} {source output : Text} {document : Document}

/-- What a run over constant generators writes, what that is read as, and what the next
run writes. -/
theorem transform_again (settings : pipeline.settings = .standard)
    (steady : pipeline.bindings.Steady uses opens content)
    (plain : ∀ opener ∈ Settings.standard.openers, ¬opener <:+: content)
    (parsed : Document.parse pipeline.limits.nesting .standard file source = .ok document)
    (used : ∀ block ∈ Tree.postorderAll document.nodes, uses block.start.name)
    (answering : pipeline.bindings.Answering uses opens content (Tree.heightAll document.nodes)
      pipeline.limits.levels)
    (done : (pipeline.transform file source).outcome = .ok output) :
    output = Node.sourceAll (Node.refillAll opens content document.nodes) ∧
      (∃ document', Document.parse pipeline.limits.nesting .standard file output = .ok document' ∧
        Tree.relabelAll Block.reading document'.nodes =
          Tree.relabelAll Block.reading (Node.rereadAll opens content document.nodes)) ∧
      (pipeline.transform file output).outcome =
        .ok (Node.sourceAll (Node.refillAll opens content
          (Node.rereadAll opens content document.nodes))) := by
  obtain ⟨document₁, trees, trees', parsed₁, bound, regenerated, rfl⟩ := transform_eq_ok_iff.mp done
  rw [settings] at parsed₁
  obtain rfl : document₁ = document := Except.ok.inj (parsed₁.symm.trans parsed)
  have resolved := resolveAll_eq_ok_iff.mp bound
  have refilled := regenerated.refilled steady resolved used
  have written : Call.sourceAll trees' = Node.sourceAll (Node.refillAll opens content document₁.nodes) := by
    rw [Call.sourceAll, refilled]
  -- The text is that of the nodes it will be read as, and these are legible.
  have legible := Document.legible_of_parse parsed
  rw [← List.append_nil (Node.baresAll _), ← List.nil_append (_ ++ [])] at legible
  have legible' := @Chunk.legible_rereadAll opens content plain _ _ _ legible
  rw [List.nil_append, List.append_nil] at legible'
  have shallow :
      Tree.heightAll (Node.rereadAll opens content document₁.nodes) ≤ pipeline.limits.nesting := by
    rw [Node.heightAll_rereadAll, ← refilled]
    exact Regenerated.shallow parsed resolved regenerated
  obtain ⟨document', parsed', named, same⟩ := Document.parse_of_legible file legible' shallow
  rw [Node.sourceAll_rereadAll, ← written] at parsed'
  -- It is bound and rendered as before.
  have named' : document'.file = document₁.file := by rw [named, Document.file_of_parse parsed]
  obtain ⟨again, bound', rerun⟩ := regenerated.rerun steady resolved used answering same
  obtain ⟨again', regenerated'⟩ := rerun []
  have refilled' := regenerated'.refilled steady bound' (Node.used_of_reread used same)
  refine ⟨written, ⟨document', parsed', same⟩, transform_eq_ok_iff.mpr
    ⟨document', again, again', ?_, resolveAll_eq_ok_iff.mpr bound', ?_, ?_⟩⟩
  · rw [settings]
    exact parsed'
  · rw [named']
    exact regenerated'
  · rw [Call.sourceAll, refilled']
    exact Node.sourceAll_of_reading (Node.refillAll_of_reading same)

end Rerun

section Constant
variable {surroundings : Surroundings} {plan : Plan} {pipeline : Pipeline} {registry after : Registry}
  {generators : List (String × Supplied)}

/-- The last generator given for a namespace answers for it; without any the entry stays. -/
theorem entry?_registerAll (done : (registerAll registry generators).outcome = .ok after)
    (namespaceName : String) :
    (∃ generator entry, (namespaceName, Supplied.generator generator) ∈ generators ∧
      after.entry? namespaceName = some entry ∧ entry.generator = generator) ∨
    (namespaceName ∉ generators.map Prod.fst ∧
      after.entry? namespaceName = registry.entry? namespaceName) := by
  induction generators generalizing registry with
  | nil =>
    cases done
    exact .inr ⟨List.not_mem_nil, rfl⟩
  | cons first more ih =>
    obtain ⟨next, registered, later⟩ := Run.bind_eq_ok_iff.mp done
    rcases ih later with ⟨generator, entry, member, found, self⟩ | ⟨absent, found⟩
    · exact .inl ⟨generator, entry, List.mem_cons_of_mem _ member, found, self⟩
    obtain ⟨firstName, supplied⟩ := first
    obtain ⟨generator, rfl, made⟩ := register_eq_ok_iff.mp registered
    obtain ⟨entry, compiled, known⟩ := Registry.entry?_register made
    obtain ⟨-, -, self, -⟩ := Registry.compile_eq_ok_iff.mp compiled
    rw [known] at found
    by_cases named : firstName = namespaceName
    · rw [if_pos named] at found
      exact .inl ⟨generator, entry, by simp [named], found, self⟩
    · rw [if_neg named] at found
      refine .inr ⟨?_, found⟩
      simpa using ⟨Ne.symm named, by simpa using absent⟩

/-- The names of the sections, where no other generator has taken their namespace. -/
def handsOn (namespaces : List String) (name : Header.ActionName) : Bool :=
  name = ⟨Settings.standard.defaultNamespace, "section"⟩ &&
    !namespaces.contains Settings.standard.defaultNamespace

/-- The names of sections and of what other generators answer. -/
def Known (namespaces : List String) (name : Header.ActionName) : Prop :=
  name = ⟨Settings.standard.defaultNamespace, "section"⟩ ∨ name.namespaceName ∈ namespaces

/-- The text of nodes with a content in all blocks that do not hand on their bodies. -/
def written (namespaces : List String) (content : Text) (nodes : List Node) : Text :=
  Node.sourceAll (Node.refillAll (handsOn namespaces) content nodes)

/-- Which generator a built pipeline calls. -/
theorem script_of_build (settings : plan.settings = .standard)
    (built : (build surroundings plan).outcome = .ok pipeline) (context : Context) :
    (∃ generator, (context.call.name.namespaceName, Supplied.generator generator) ∈ plan.generators ∧
      pipeline.bindings.script context =
        generator.generate context.call.name.action context.call.params context) ∨
    (context.call.name.namespaceName ∉ plan.generators.map Prod.fst ∧
      (context.call.name.namespaceName = Settings.standard.defaultNamespace →
        pipeline.bindings.script context = Builtin.generate surroundings.evaluate surroundings.installed
          context.call.name.action context.call.params context)) := by
  obtain ⟨registry, vars, registered, -, rfl⟩ := build_eq_ok_iff.mp built
  obtain ⟨next, first, later⟩ := Run.bind_eq_ok_iff.mp registered
  rcases entry?_registerAll later context.call.name.namespaceName with
    ⟨generator, entry, member, found, rfl⟩ | ⟨absent, found⟩
  · exact .inl ⟨entry.generator, member, by rw [script, found]⟩
  · refine .inr ⟨absent, fun named => ?_⟩
    unfold register at first
    dsimp only at first
    split at first
    · cases first
    · rename_i made
      cases first
      obtain ⟨entry, compiled, known⟩ := Registry.entry?_register made
      obtain ⟨-, -, self, -⟩ := Registry.compile_eq_ok_iff.mp compiled
      rw [known, if_pos (by rw [settings, named])] at found
      rw [script, found]
      simp only [self]
      rfl

/-- What is not a section is answered by one of the generators given. -/
theorem generator_of_build (settings : plan.settings = .standard)
    (built : (build surroundings plan).outcome = .ok pipeline) {context : Context}
    (used : Known (plan.generators.map Prod.fst) context.call.name)
    (closed : ¬handsOn (plan.generators.map Prod.fst) context.call.name = true) :
    ∃ namespaceName generator, (namespaceName, Supplied.generator generator) ∈ plan.generators ∧
      pipeline.bindings.script context =
        generator.generate context.call.name.action context.call.params context := by
  rcases script_of_build settings built context with ⟨generator, member, answers⟩ | ⟨absent, -⟩
  · exact ⟨_, generator, member, answers⟩
  · rcases used with named | member
    · rw [named] at absent
      exact absurd (by simpa [handsOn, named] using absent) closed
    · exact absurd member absent

theorem steady_of_build {content : Text} (settings : plan.settings = .standard)
    (built : (build surroundings plan).outcome = .ok pipeline)
    (constant : ∀ namespaceName generator,
      (namespaceName, Supplied.generator generator) ∈ plan.generators → generator.Constant content) :
    pipeline.bindings.Steady (Known (plan.generators.map Prod.fst))
      (handsOn (plan.generators.map Prod.fst)) content := by
  constructor
  · intro context _ opened
    simp only [handsOn, Bool.and_eq_true, decide_eq_true_eq, Bool.not_eq_true',
      List.contains_eq_mem, decide_eq_false_iff_not] at opened
    obtain ⟨named, free⟩ := opened
    rcases script_of_build settings built context with ⟨generator, member, -⟩ | ⟨-, builtin⟩
    · rw [named] at member
      exact absurd (List.mem_map_of_mem member) free
    · rw [builtin (by rw [named]), named]
      exact Script.transparent_isTransparent
  · intro context used closed
    obtain ⟨_, generator, member, answers⟩ := generator_of_build settings built used closed
    rw [answers]
    exact constant _ _ member _ _ _

theorem settings_of_build (built : (build surroundings plan).outcome = .ok pipeline) :
    pipeline.settings = plan.settings := by
  obtain ⟨registry, vars, -, -, rfl⟩ := build_eq_ok_iff.mp built
  rfl

theorem limits_of_build (built : (build surroundings plan).outcome = .ok pipeline) :
    pipeline.limits = surroundings.limits := by
  obtain ⟨registry, vars, -, -, rfl⟩ := build_eq_ok_iff.mp built
  rfl

end Constant

/-- With the default settings and generators that always answer with one content, which
holds no comment opener, a third run changes nothing, and neither does a second one
unless some header has no line break of its own and takes one from the content. Each
such header adds one line break to the second output, and to no other. -/
theorem constant_contents_settle (surroundings : Surroundings) (plan : Plan) (pipeline : Pipeline)
    (namespaces : List String) (content : Text) (file : Option String) (source output : Text)
    (document : Document) (settings : plan.settings = .standard)
    (named : plan.generators.map Prod.fst = namespaces)
    (built : (build surroundings plan).outcome = .ok pipeline)
    (constant : ∀ namespaceName generator,
      (namespaceName, Supplied.generator generator) ∈ plan.generators → generator.Constant content)
    (plain : ∀ opener ∈ Settings.standard.openers, ¬opener <:+: content)
    (parsed : Document.parse pipeline.limits.nesting .standard file source = .ok document)
    (known : ∀ block ∈ Tree.postorderAll document.nodes, Known namespaces block.start.name)
    (reach : Tree.heightAll document.nodes ≤ pipeline.limits.levels ∨
      ∀ namespaceName generator, (namespaceName, Supplied.generator generator) ∈ plan.generators →
        ∀ action params context, generator.generate action params context = .reply (.content content))
    (done : (pipeline.transform file source).outcome = .ok output) :
    ∃ again, (pipeline.transform file output).outcome = .ok again ∧
      (pipeline.transform file again).outcome = .ok again ∧
      output = written namespaces content document.nodes ∧
      again = written namespaces content
        (Node.rereadAll (handsOn namespaces) content document.nodes) ∧
      (again = output ↔ Chunk.newline content = [] ∨
        Node.bareHeaders (handsOn namespaces) document.nodes = 0) ∧
      again.length = output.length +
        Node.bareHeaders (handsOn namespaces) document.nodes * (Chunk.newline content).length := by
  subst named
  have steady := steady_of_build settings built constant
  have standard := (settings_of_build built).trans settings
  have answering (levels : Nat) (low : levels ≤ Tree.heightAll document.nodes) :
      pipeline.bindings.Answering (Known (plan.generators.map Prod.fst))
        (handsOn (plan.generators.map Prod.fst)) content levels pipeline.limits.levels := by
    refine reach.symm.imp (fun atOnce context used closed => ?_) low.trans
    obtain ⟨_, generator, member, answers⟩ := generator_of_build settings built used closed
    rw [answers, atOnce _ _ member]
  obtain ⟨first, ⟨document', parsed', same⟩, second⟩ :=
    transform_again standard steady plain parsed known (answering _ le_rfl) done
  have low : Tree.heightAll document'.nodes ≤ Tree.heightAll document.nodes := by
    rw [← Tree.heightAll_relabelAll Block.reading, same, Tree.heightAll_relabelAll,
      Node.heightAll_rereadAll]
    exact Node.heightAll_refillAll_le ..
  obtain ⟨-, -, third⟩ := transform_again standard steady plain parsed'
    (Node.used_of_reread known same) (answering _ low) second
  rw [Node.sourceAll_of_reading (Node.refillAll_of_reading (Node.rereadAll_of_reading same)),
    Node.refillAll_rereadAll_twice] at third
  have grown := Node.length_refillAll_rereadAll (handsOn (plan.generators.map Prod.fst)) content
    document.nodes
  rw [← first] at grown
  refine ⟨_, second, third, first, rfl, ⟨fun settled => ?_, fun settled => ?_⟩, grown⟩
  · rw [settled] at grown
    have none : Node.bareHeaders (handsOn (plan.generators.map Prod.fst)) document.nodes *
        (Chunk.newline content).length = 0 := by omega
    exact (Nat.mul_eq_zero.mp none).symm.imp_left List.length_eq_zero_iff.mp
  · rw [Node.refillAll_rereadAll_of_settled settled, first]

/-- Surroundings in which there is nothing. -/
def emptySurroundings : Surroundings where
  settings := .standard
  limits := ⟨1, 1⟩
  files := ⟨[(["w"], .directory)], ["w"]⟩
  now := ⟨2024, 1, 2, 0, 0, 0, 0⟩
  installed := []
  evaluate := fun _ => .value ""
  readProject := fun _ => .ok .none
  readMetadata := fun _ => .ok (.table [])

/-- A generator with one action, the content of which is a line feed. -/
def feedGenerator : Generator :=
  ⟨"Feed", .ok (Value.ofEntries [("x", .none)]), fun _ _ _ => .reply (.content ['\n'])⟩

def feedPlan : Plan where
  settings := .standard
  generators := [("c", .generator feedGenerator)]
  vars := .none
  scopes := some []
  backupEnabled := some false
  backupDirectory := none
  moment := none

/-- A header without a line break of its own. -/
def bareText : Text := "<!-- rdmx c:x --><!-- rdmx /c:x -->".toList

def feedOutput : Text := "<!-- rdmx c:x -->\n<!-- rdmx /c:x -->".toList

def grownOutput : Text := "<!-- rdmx c:x -->\n\n<!-- rdmx /c:x -->".toList

def bareBlock : Block :=
  ⟨⟨⟨"c", "x"⟩, [], "<!-- rdmx c:x -->".toList, ⟨1, 11⟩⟩, "<!-- rdmx /c:x -->".toList⟩

theorem constant_feed {namespaceName : String} {generator : Generator}
    (member : (namespaceName, Supplied.generator generator) ∈ feedPlan.generators) :
    ∀ action params context, generator.generate action params context = .reply (.content ['\n']) := by
  obtain ⟨⟩ := List.mem_singleton.mp member
  exact fun _ _ _ => rfl

/-- The output of the first run is parsed to a header with a line break and no body, so
that the second run writes one line break more. -/
theorem constant_content_grows : ∃ pipeline, (build emptySurroundings feedPlan).outcome = .ok pipeline ∧
    (pipeline.transform none bareText).outcome = .ok feedOutput ∧
    (pipeline.transform none feedOutput).outcome = .ok grownOutput ∧ grownOutput ≠ feedOutput := by
  have ran : ((build emptySurroundings feedPlan).outcome.toOption.map fun pipeline =>
      ((pipeline.transform none bareText).outcome.toOption,
        (pipeline.transform none feedOutput).outcome.toOption)) =
      some (some feedOutput, some grownOutput) := by decide +kernel
  obtain ⟨pipeline, built, outputs⟩ := Option.map_eq_some_iff.mp ran
  obtain ⟨first, second⟩ := Prod.mk.inj outputs
  exact ⟨pipeline, ok_of_toOption built, ok_of_toOption first, ok_of_toOption second, by decide⟩

theorem constant_contents_settle_feed : ∃ pipeline again,
    (build emptySurroundings feedPlan).outcome = .ok pipeline ∧
    (pipeline.transform none bareText).outcome = .ok feedOutput ∧
    (pipeline.transform none feedOutput).outcome = .ok again ∧
    (pipeline.transform none again).outcome = .ok again ∧ again.length = feedOutput.length + 1 := by
  have ran : ((build emptySurroundings feedPlan).outcome.toOption.map fun pipeline =>
      (pipeline.transform none bareText).outcome.toOption) = some (some feedOutput) := by decide +kernel
  obtain ⟨pipeline, built, first⟩ := Option.map_eq_some_iff.mp ran
  have limits : pipeline.limits = ⟨1, 1⟩ := limits_of_build (ok_of_toOption built)
  have parsed : Document.parse pipeline.limits.nesting .standard none bareText =
      .ok ⟨"nofile", [.block bareBlock []]⟩ := by
    rw [limits]
    exact ok_of_toOption (by decide +kernel)
  have low : Tree.heightAll [Tree.block bareBlock []] ≤ pipeline.limits.levels := by
    rw [limits]
    decide
  have known : ∀ block ∈ Tree.postorderAll [Tree.block bareBlock []], Known ["c"] block.start.name := by
    simp [Known, bareBlock]
  obtain ⟨again, second, third, -, -, -, grown⟩ := constant_contents_settle emptySurroundings feedPlan
    pipeline ["c"] ['\n'] none bareText feedOutput _ rfl rfl (ok_of_toOption built)
    (fun _ _ member action params context => constant_feed member action params context ▸ .reply)
    (by decide +kernel) parsed known (.inl low) (ok_of_toOption first)
  have one :
      Node.bareHeaders (handsOn ["c"]) [.block bareBlock []] * (Chunk.newline ['\n']).length = 1 := by
    decide +kernel
  exact ⟨pipeline, again, ok_of_toOption built, ok_of_toOption first, second, third, one ▸ grown⟩

end Pipeline
end Regen
