import Regen.Pipeline
import Regen.Proofs.ChunkTiling
import Regen.Proofs.Forests

/-! What rendering does to a document. The text that comes out is the text that
went in with the bodies of some blocks replaced: of those that are met first on
the way in and do not hand on the text of their children as it is. All else
stays, markers and line breaks included, and a document whose blocks all hand
their children on comes out as it went in. -/
namespace Regen

namespace Script

/-- The reply to children with a text. -/
def answer (text : Text) : Script → Reply
  | .reply given => given
  | .withChildren next => (next text).answer text

/-- The script answers with the text of its children as it is. -/
def IsTransparent (script : Script) : Prop := ∀ text, script.answer text = .content text

section Transparent
variable {ε : Type} {script : Script} {children : Run ε Text} {text : Text}

theorem outcome_run_of_ok (rendered : children.outcome = .ok text) :
    (script.run children).outcome = .ok (script.answer text) := by
  induction script with
  | reply given => rfl
  | withChildren next ih =>
    rw [run, Run.outcome_bind, rendered]
    exact ih text

/-- A script that does not ask for its children cannot know their text. -/
theorem IsTransparent.asks (transparent : script.IsTransparent) :
    ∃ next, script = .withChildren next := by
  cases script with
  | reply given =>
    have empty := transparent []
    have other := transparent [' ']
    rw [answer] at empty other
    rw [empty] at other
    cases other
  | withChildren next => exact ⟨next, rfl⟩

/-- A transparent script ends as its children do. -/
theorem IsTransparent.outcome_run (transparent : script.IsTransparent) :
    (script.run children).outcome = children.outcome.map Reply.content := by
  obtain ⟨next, rfl⟩ := transparent.asks
  cases rendered : children.outcome with
  | error stop => rw [run, Run.bind_of_error rendered, Except.map]
  | ok text => rw [outcome_run_of_ok rendered, transparent text, Except.map]

theorem transparent_isTransparent : Script.transparent.IsTransparent := fun _ => rfl

end Transparent
end Script

/-- A text as a forest, empty where it is. -/
def Tree.ofText {α : Type} (content : Text) : List (Tree α) :=
  if content.isEmpty then [] else [.text content]

/-- The text that bound trees were parsed from. -/
def Call.sourceAll (trees : List (Tree Call)) : Text :=
  Node.sourceAll (Tree.relabelAll Call.block trees)

/-- A tree as the siblings after it see it. -/
def Sibling.ofTree : Tree Call → Sibling
  | .text content => .text content
  | .block call body => .block call (Call.sourceAll body)

section Source
variable {call : Call} {body more : List (Tree Call)} {content : Text}

@[simp] theorem Call.sourceAll_nil : Call.sourceAll [] = [] := rfl

@[simp] theorem Call.sourceAll_text :
    Call.sourceAll (.text content :: more) = content ++ Call.sourceAll more := rfl

@[simp] theorem Call.sourceAll_block : Call.sourceAll (.block call body :: more) =
    call.block.start.raw ++ Call.sourceAll body ++ call.block.footer ++ Call.sourceAll more := rfl

@[simp] theorem Call.sourceAll_ofText : Call.sourceAll (Tree.ofText content) = content := by
  cases content <;> simp [Tree.ofText]

theorem Sibling.outputAll_map_ofTree (trees : List (Tree Call)) :
    Sibling.outputAll (trees.map Sibling.ofTree) = Call.sourceAll trees := by
  induction trees using Tree.forest_induction with
  | nil => rfl
  | text content more ih => simpa [outputAll, output, ofTree] using ih
  | block call body more _ ih => simpa [outputAll, output, ofTree] using ih

end Source

namespace Bindings

/-- What the generator of a call is handed. -/
def contextOf (bindings : Bindings) (file : String) (previous : List Sibling) (call : Call)
    (body following : List (Tree Call)) : Context :=
  ⟨file, call, body, previous, following, bindings.vars⟩

/-- The text of the children of a block, for generators that ask for it. -/
def childrenText (bindings : Bindings) (file : String) (room : Nat) (body : List (Tree Call)) :
    Run RenderStop Text :=
  match room with
  | 0 => .fail .tooDeep
  | room + 1 => (bindings.renderAll file room [] body).bind fun siblings =>
      .pure (Sibling.outputAll siblings)

/-- Trees and what becomes of them. Texts stay; a block keeps its markers, and its
body is regenerated if its generator hands it on, and otherwise replaced by the
content generated. -/
inductive Regenerated (bindings : Bindings) (file : String) :
    (room : Nat) → (previous : List Sibling) → List (Tree Call) → List (Tree Call) → Prop
  | nil {room : Nat} {previous : List Sibling} : Regenerated bindings file room previous [] []
  | text {room : Nat} {previous : List Sibling} {content : Text} {more more' : List (Tree Call)} :
    Regenerated bindings file room (previous ++ [.text content]) more more' →
    Regenerated bindings file room previous (.text content :: more) (.text content :: more')
  | kept {room : Nat} {previous : List Sibling} {call : Call} {body body' more more' : List (Tree Call)} :
    (bindings.script (bindings.contextOf file previous call body more)).IsTransparent →
    Regenerated bindings file room [] body body' →
    Regenerated bindings file (room + 1) (previous ++ [.ofTree (.block call body')]) more more' →
    Regenerated bindings file (room + 1) previous (.block call body :: more) (.block call body' :: more')
  | replaced {room : Nat} {previous : List Sibling} {call : Call} {content : Text}
      {body more more' : List (Tree Call)} :
    ¬(bindings.script (bindings.contextOf file previous call body more)).IsTransparent →
    ((bindings.script (bindings.contextOf file previous call body more)).run
      (bindings.childrenText file room body)).outcome = .ok (.content content) →
    Regenerated bindings file room (previous ++ [.block call content]) more more' →
    Regenerated bindings file room previous (.block call body :: more)
      (.block call (Tree.ofText content) :: more')

/-- All blocks hand their children on. -/
inductive Untouched (bindings : Bindings) (file : String) :
    (previous : List Sibling) → List (Tree Call) → Prop
  | nil {previous : List Sibling} : Untouched bindings file previous []
  | text {previous : List Sibling} {content : Text} {more : List (Tree Call)} :
    Untouched bindings file (previous ++ [.text content]) more →
    Untouched bindings file previous (.text content :: more)
  | block {previous : List Sibling} {call : Call} {body more : List (Tree Call)} :
    (bindings.script (bindings.contextOf file previous call body more)).IsTransparent →
    Untouched bindings file [] body →
    Untouched bindings file (previous ++ [.ofTree (.block call body)]) more →
    Untouched bindings file previous (.block call body :: more)

section Render
variable {bindings : Bindings} {file : String} {room : Nat} {previous siblings : List Sibling}
  {call : Call} {body following trees trees' : List (Tree Call)} {sibling : Sibling} {text : Text}

theorem settle_eq_ok_iff {reply : Reply} :
    (reply.settle file call).mapError RenderStop.halt = .ok text ↔ reply = .content text := by
  rw [mapError_eq_ok_iff]
  cases reply <;> simp [Reply.settle]

theorem render_block (bindings : Bindings) (file : String) (room : Nat) (previous : List Sibling)
    (following : List (Tree Call)) (call : Call) (body : List (Tree Call)) :
    bindings.render file room previous following (.block call body) =
      (Run.record (.rendering call.name file call.loc)).bind fun _ =>
        ((bindings.script (bindings.contextOf file previous call body following)).run
          (bindings.childrenText file room body)).bind fun reply =>
            (Run.ofExcept ((reply.settle file call).mapError RenderStop.halt)).bind fun content =>
              .pure (.block call content) := by
  have children : (match room with
      | 0 => .fail .tooDeep
      | room + 1 => (bindings.renderAll file room [] body).bind (output file)) =
        bindings.childrenText file room body := by
    cases room with
    | zero => rfl
    | succ room => rw [childrenText, funext (output_eq file)]
  unfold render
  rw [← children]
  rfl

theorem renderAll_text (content : Text) (more : List (Tree Call)) :
    bindings.renderAll file room previous (.text content :: more) =
      bindings.renderAll file room (previous ++ [.text content]) more := by
  rw [renderAll, render]
  rfl

theorem outcome_renderAll_block (bindings : Bindings) (file : String) (room : Nat)
    (previous : List Sibling) (call : Call) (body following : List (Tree Call)) :
    (bindings.renderAll file room previous (.block call body :: following)).outcome =
      (((bindings.script (bindings.contextOf file previous call body following)).run
          (bindings.childrenText file room body)).outcome.bind fun reply =>
        (reply.settle file call).mapError RenderStop.halt).bind fun content =>
          (bindings.renderAll file room (previous ++ [.block call content]) following).outcome := by
  rw [renderAll, render_block]
  simp only [Run.outcome_bind, Run.outcome_record, Run.outcome_ofExcept, Run.outcome_pure, Except.bind]
  cases ((bindings.script (bindings.contextOf file previous call body following)).run
    (bindings.childrenText file room body)).outcome with
  | error stop => rfl
  | ok reply =>
    dsimp only
    cases (reply.settle file call).mapError RenderStop.halt <;> rfl

theorem outcome_renderAll_of_content
    (ran : ((bindings.script (bindings.contextOf file previous call body following)).run
      (bindings.childrenText file room body)).outcome = .ok (.content text)) :
    (bindings.renderAll file room previous (.block call body :: following)).outcome =
      (bindings.renderAll file room (previous ++ [.block call text]) following).outcome := by
  rw [outcome_renderAll_block, ran]
  rfl

theorem outcome_renderAll_of_error {stop : RenderStop}
    (failed : ((bindings.script (bindings.contextOf file previous call body following)).run
      (bindings.childrenText file room body)).outcome = .error stop) :
    (bindings.renderAll file room previous (.block call body :: following)).outcome = .error stop := by
  rw [outcome_renderAll_block, failed]
  rfl

theorem content_of_renderAll
    (rendered : (bindings.renderAll file room previous (.block call body :: following)).outcome =
      .ok siblings) :
    ∃ content, ((bindings.script (bindings.contextOf file previous call body following)).run
        (bindings.childrenText file room body)).outcome = .ok (.content content) ∧
      (bindings.renderAll file room (previous ++ [.block call content]) following).outcome =
        .ok siblings := by
  cases ran : ((bindings.script (bindings.contextOf file previous call body following)).run
      (bindings.childrenText file room body)).outcome with
  | error stop =>
    rw [outcome_renderAll_of_error ran] at rendered
    cases rendered
  | ok reply =>
    cases settled : (reply.settle file call).mapError RenderStop.halt with
    | error stop =>
      rw [outcome_renderAll_block, ran] at rendered
      simp [Except.bind, settled] at rendered
    | ok content =>
      obtain rfl := settle_eq_ok_iff.mp settled
      rw [outcome_renderAll_of_content ran] at rendered
      exact ⟨content, rfl, rendered⟩

/-- A transparent block whose children are rendered has their text for content. -/
theorem content_of_transparent
    (transparent : (bindings.script (bindings.contextOf file previous call body following)).IsTransparent)
    (rendered : (bindings.renderAll file room [] body).outcome = .ok siblings) :
    ((bindings.script (bindings.contextOf file previous call body following)).run
      (bindings.childrenText file (room + 1) body)).outcome =
        .ok (.content (Sibling.outputAll siblings)) := by
  have children : (bindings.childrenText file (room + 1) body).outcome =
      .ok (Sibling.outputAll siblings) := by
    rw [childrenText, Run.outcome_bind, rendered]
    rfl
  rw [transparent.outcome_run, children]
  rfl

/-- A transparent block that has been rendered had its children rendered. -/
theorem rendered_of_transparent
    (transparent : (bindings.script (bindings.contextOf file previous call body following)).IsTransparent)
    (ran : ((bindings.script (bindings.contextOf file previous call body following)).run
      (bindings.childrenText file room body)).outcome = .ok (.content text)) :
    ∃ below siblings, room = below + 1 ∧
      (bindings.renderAll file below [] body).outcome = .ok siblings ∧
      text = Sibling.outputAll siblings := by
  cases room with
  | zero =>
    rw [transparent.outcome_run] at ran
    cases ran
  | succ below =>
    cases rendered : (bindings.renderAll file below [] body).outcome with
    | error stop =>
      rw [transparent.outcome_run, childrenText, Run.outcome_bind, rendered] at ran
      cases ran
    | ok siblings =>
      rw [content_of_transparent transparent rendered] at ran
      cases ran
      exact ⟨below, siblings, rfl, rendered, rfl⟩

/-- What is rendered are the siblings before and the regenerated trees. -/
theorem renderAll_of_regenerated (regenerated : Regenerated bindings file room previous trees trees') :
    (bindings.renderAll file room previous trees).outcome =
      .ok (previous ++ trees'.map Sibling.ofTree) := by
  induction regenerated with
  | nil => simp [renderAll]
  | text _ ih => simpa [renderAll_text, Sibling.ofTree] using ih
  | @kept room previous call body body' more more' transparent _ _ inside after =>
    have ran := content_of_transparent transparent inside
    rw [List.nil_append, Sibling.outputAll_map_ofTree] at ran
    rw [outcome_renderAll_of_content ran]
    simpa [Sibling.ofTree] using after
  | @replaced room previous call content body more more' _ ran _ after =>
    rw [outcome_renderAll_of_content ran]
    simpa [Sibling.ofTree] using after

/-- Trees that have been rendered have been regenerated. -/
theorem regenerated_of_renderAll
    (rendered : (bindings.renderAll file room previous trees).outcome = .ok siblings) :
    ∃ trees', Regenerated bindings file room previous trees trees' ∧
      siblings = previous ++ trees'.map Sibling.ofTree := by
  induction trees using Tree.forest_induction generalizing room previous siblings with
  | nil =>
    cases rendered
    exact ⟨[], .nil, by simp⟩
  | text content more ih =>
    rw [renderAll_text] at rendered
    obtain ⟨more', regenerated, rfl⟩ := ih rendered
    exact ⟨.text content :: more', .text regenerated, by simp [Sibling.ofTree]⟩
  | block call body more inside after =>
    obtain ⟨content, ran, rendered⟩ := content_of_renderAll rendered
    by_cases transparent :
        (bindings.script (bindings.contextOf file previous call body more)).IsTransparent
    · obtain ⟨below, inner, rfl, rendered', rfl⟩ := rendered_of_transparent transparent ran
      obtain ⟨body', regenerated', rfl⟩ := inside rendered'
      rw [List.nil_append, Sibling.outputAll_map_ofTree] at rendered
      obtain ⟨more', regenerated, rfl⟩ := after rendered
      exact ⟨.block call body' :: more', .kept transparent regenerated' regenerated,
        by simp [Sibling.ofTree]⟩
    · obtain ⟨more', regenerated, rfl⟩ := after rendered
      exact ⟨.block call (Tree.ofText content) :: more', .replaced transparent ran regenerated,
        by simp [Sibling.ofTree]⟩

/-- The entry of a generator holds the generator. -/
theorem generator_of_compile {namespaceName : String} {generator : Generator} {entry : Registered}
    (compiled : Registry.compile namespaceName generator = .ok entry) : entry.generator = generator := by
  unfold Registry.compile at compiled
  split at compiled
  · cases compiled
  · obtain ⟨actions, -, done⟩ := bind_eq_ok_iff.mp compiled
    cases done
    rfl
  · cases compiled

/-- The generator registered for a namespace answers the calls in it. -/
theorem script_of_registered {registry : Registry} {namespaceName : String} {generator : Generator}
    {context : Context}
    (registered : registry.register namespaceName generator = .ok bindings.registry)
    (named : context.call.name.namespaceName = namespaceName) :
    bindings.script context =
      generator.generate context.call.name.action context.call.params context := by
  obtain ⟨entry, compiled, found⟩ := Registry.entry?_register registered
  rw [script, found, if_pos named.symm]
  simp only [generator_of_compile compiled]

end Render

section Untouched
variable {bindings : Bindings} {file : String} {room : Nat} {previous : List Sibling}
  {trees : List (Tree Call)}

theorem Untouched.regenerated (untouched : Untouched bindings file previous trees)
    (shallow : Tree.heightAll trees ≤ room) :
    Regenerated bindings file room previous trees trees := by
  induction untouched generalizing room with
  | nil => exact .nil
  | text _ ih =>
    rw [Tree.heightAll_text] at shallow
    exact .text (ih shallow)
  | block transparent _ _ inside after =>
    rw [Tree.heightAll_block, Nat.max_le] at shallow
    obtain ⟨low, shallow⟩ := shallow
    obtain ⟨below, rfl⟩ : ∃ below, room = below + 1 := ⟨room - 1, by omega⟩
    exact .kept transparent (inside (by omega)) (after (by omega))

theorem Untouched.tooDeep (untouched : Untouched bindings file previous trees)
    (deep : room < Tree.heightAll trees) :
    (bindings.renderAll file room previous trees).outcome = .error .tooDeep := by
  induction untouched generalizing room with
  | nil => exact absurd deep (Nat.not_lt_zero room)
  | text _ ih =>
    rw [Tree.heightAll_text] at deep
    rw [renderAll_text]
    exact ih deep
  | @block previous call body more transparent untouched _ inside after =>
    rw [Tree.heightAll_block] at deep
    by_cases low : Tree.heightAll body < room
    · -- The block comes out as it is, so one after it is too deep.
      obtain ⟨below, rfl⟩ : ∃ below, room = below + 1 := ⟨room - 1, by omega⟩
      have rendered := renderAll_of_regenerated (untouched.regenerated (Nat.le_of_lt_succ low))
      have ran := content_of_transparent transparent rendered
      rw [List.nil_append, Sibling.outputAll_map_ofTree] at ran
      rw [outcome_renderAll_of_content ran]
      exact after (by omega)
    · refine outcome_renderAll_of_error ?_
      rw [transparent.outcome_run]
      cases room with
      | zero => rfl
      | succ below =>
        rw [childrenText, Run.outcome_bind, inside (by omega)]
        rfl

end Untouched

/-- Nodes and the trees they are bound to: each block has the call that it makes. -/
inductive Resolved (bindings : Bindings) : List Node → List (Tree Call) → Prop
  | nil : Resolved bindings [] []
  | text {content : Text} {more : List Node} {trees : List (Tree Call)} :
    Resolved bindings more trees → Resolved bindings (.text content :: more) (.text content :: trees)
  | block {block : Block} {call : Call} {body more : List Node} {children trees : List (Tree Call)} :
    bindings.call block = .ok call → Resolved bindings body children → Resolved bindings more trees →
    Resolved bindings (.block block body :: more) (.block call children :: trees)

section Resolve
variable {bindings : Bindings} {file : String} {nodes : List Node} {trees : List (Tree Call)}
  {block : Block} {call : Call}

theorem resolveAll_of_resolved (resolved : Resolved bindings nodes trees) :
    bindings.resolveAll file nodes = .ok trees := by
  induction resolved with
  | nil => rfl
  | text _ ih => simp [resolveAll, resolve, ih]
  | block called _ _ inside after => simp [resolveAll, resolve, inside, called, after]

theorem resolved_of_resolveAll (bound : bindings.resolveAll file nodes = .ok trees) :
    Resolved bindings nodes trees := by
  induction nodes using Tree.forest_induction generalizing trees with
  | nil =>
    cases bound
    exact .nil
  | text content more ih =>
    simp only [resolveAll, resolve] at bound
    cases after : bindings.resolveAll file more with
    | error halt => simp [after] at bound
    | ok trees =>
      simp only [after, Except.ok.injEq] at bound
      exact bound ▸ .text (ih after)
  | block block body more inside outside =>
    simp only [resolveAll, resolve] at bound
    cases within : bindings.resolveAll file body with
    | error halt => simp [within] at bound
    | ok children =>
      cases called : bindings.call block with
      | error fault => simp [within, called] at bound
      | ok call =>
        cases after : bindings.resolveAll file more with
        | error halt => simp [within, called, after] at bound
        | ok trees =>
          simp only [within, called, after, Except.ok.injEq] at bound
          exact bound ▸ .block called (inside within) (outside after)

theorem resolveAll_eq_ok_iff :
    bindings.resolveAll file nodes = .ok trees ↔ Resolved bindings nodes trees :=
  ⟨resolved_of_resolveAll, resolveAll_of_resolved⟩

/-- A call is made by a block that names an action, of what is given for its parameters
once that is checked. -/
theorem made_of_call (called : bindings.call block = .ok call) :
    ∃ entry action given,
      bindings.registry.entry? block.start.name.namespaceName = some entry ∧
      entry.action? block.start.name.action = some action ∧
      bindings.given block.start.params = .ok given ∧
      action.schema.check given = .ok call.params ∧
      sectionName action.spec.container call.params = .ok call.sectionName ∧
      call.block = block := by
  simp only [Bindings.call, callAction] at called
  split at called
  · cases called
  · rename_i entry known
    split at called
    · cases called
    · rename_i action declared
      split at called
      · cases called
      · rename_i given gave
        split at called
        · cases called
        · cases called
        · rename_i params checked
          split at called
          · cases called
          · rename_i opened
            cases called
            exact ⟨entry, action, given, known, declared, gave, checked, opened, rfl⟩

theorem block_of_call (called : bindings.call block = .ok call) : call.block = block := by
  obtain ⟨_, _, _, -, -, -, -, -, same⟩ := made_of_call called
  exact same

theorem Resolved.relabelAll (resolved : Resolved bindings nodes trees) :
    Tree.relabelAll Call.block trees = nodes := by
  induction resolved with
  | nil => rfl
  | text _ ih => simp [ih]
  | block called _ _ inside after =>
    simp [inside, after, block_of_call called]

end Resolve
end Bindings

namespace Pipeline
open Bindings

section Transform
variable {pipeline : Pipeline} {file : Option String} {source output : Text} {document : Document}
  {trees : List (Tree Call)}

theorem outcome_parse (pipeline : Pipeline) (file : Option String) (source : Text) :
    (pipeline.parse (Document.nameIn pipeline.settings file) source).outcome =
      Document.parse pipeline.limits.nesting pipeline.settings file source := by
  rw [parse, Document.parse, Run.outcome_bind, Run.outcome_ofExcept]
  cases Chunk.scan pipeline.settings (Document.nameIn pipeline.settings file) source <;> rfl

theorem sourceAll_of_bound
    (parsed : Document.parse pipeline.limits.nesting pipeline.settings file source = .ok document)
    (bound : pipeline.bindings.resolveAll document.file document.nodes = .ok trees) :
    Call.sourceAll trees = source := by
  rw [Call.sourceAll, (resolved_of_resolveAll bound).relabelAll]
  exact Document.source_of_parse parsed

/-- The end of rendering, for a document whose blocks are bound. -/
theorem outcome_transform_of_bound
    (parsed : Document.parse pipeline.limits.nesting pipeline.settings file source = .ok document)
    (bound : pipeline.bindings.resolveAll document.file document.nodes = .ok trees) :
    (pipeline.transform file source).outcome =
      (match (pipeline.bindings.renderAll document.file pipeline.limits.levels [] trees).outcome with
      | .ok siblings => .ok (Sibling.outputAll siblings)
      | .error stop => .error (stopAt document stop)) := by
  rw [transform, Run.outcome_bind, outcome_parse, parsed, Except.bind, render, funext (output_eq document.file)]
  simp only [Run.outcome_bind, Run.outcome_ofExcept, Run.outcome_record, Run.outcome_mapError, bound,
    Except.bind]
  cases (pipeline.bindings.renderAll document.file pipeline.limits.levels [] trees).outcome <;> rfl

theorem transform_eq_ok_iff :
    (pipeline.transform file source).outcome = .ok output ↔
      ∃ document trees trees',
        Document.parse pipeline.limits.nesting pipeline.settings file source = .ok document ∧
        pipeline.bindings.resolveAll document.file document.nodes = .ok trees ∧
        Regenerated pipeline.bindings document.file pipeline.limits.levels [] trees trees' ∧
        Call.sourceAll trees' = output := by
  constructor
  · intro done
    obtain ⟨document, parsed, after⟩ := Run.bind_eq_ok_iff.mp done
    rw [outcome_parse] at parsed
    obtain ⟨trees, bound, -⟩ := Run.bind_eq_ok_iff.mp after
    rw [Run.outcome_ofExcept] at bound
    rw [outcome_transform_of_bound parsed bound] at done
    split at done
    · rename_i siblings rendered
      cases done
      obtain ⟨trees', regenerated, rfl⟩ := regenerated_of_renderAll rendered
      exact ⟨document, trees, trees', parsed, bound, regenerated,
        (Sibling.outputAll_map_ofTree trees').symm⟩
    · cases done
  · rintro ⟨document, trees, trees', parsed, bound, regenerated, rfl⟩
    rw [outcome_transform_of_bound parsed bound, renderAll_of_regenerated regenerated]
    simp [Sibling.outputAll_map_ofTree]

end Transform

/-- The output is the source with the bodies of the outermost blocks replaced whose
generators do not hand them on, and with nothing else changed; without such
blocks it is the source, up to the depth that is rendered. -/
theorem transform_changes_bodies (pipeline : Pipeline) (file : Option String) (source : Text) :
    (∀ output, (pipeline.transform file source).outcome = .ok output ↔
      ∃ document trees trees',
        Document.parse pipeline.limits.nesting pipeline.settings file source = .ok document ∧
        pipeline.bindings.resolveAll document.file document.nodes = .ok trees ∧
        Call.sourceAll trees = source ∧
        Regenerated pipeline.bindings document.file pipeline.limits.levels [] trees trees' ∧
        Call.sourceAll trees' = output) ∧
    (∀ document trees, Document.parse pipeline.limits.nesting pipeline.settings file source = .ok document →
      pipeline.bindings.resolveAll document.file document.nodes = .ok trees →
      Untouched pipeline.bindings document.file [] trees →
      (pipeline.transform file source).outcome =
        if Tree.heightAll trees ≤ pipeline.limits.levels then .ok source else .error (tooDeep document)) := by
  constructor
  · intro output
    rw [transform_eq_ok_iff]
    constructor
    · rintro ⟨document, trees, trees', parsed, bound, regenerated, written⟩
      exact ⟨document, trees, trees', parsed, bound, sourceAll_of_bound parsed bound, regenerated, written⟩
    · rintro ⟨document, trees, trees', parsed, bound, -, regenerated, written⟩
      exact ⟨document, trees, trees', parsed, bound, regenerated, written⟩
  · intro document trees parsed bound untouched
    split
    · rename_i shallow
      exact transform_eq_ok_iff.mpr ⟨document, trees, trees, parsed, bound,
        untouched.regenerated shallow, sourceAll_of_bound parsed bound⟩
    · rename_i deep
      rw [outcome_transform_of_bound parsed bound, untouched.tooDeep (Nat.lt_of_not_le deep)]
      rfl

/-- What is built in, without variables; code has no value and nothing is installed. -/
def builtinBindings : Bindings :=
  ⟨(Registry.register [] "rdmx" (Builtin.generator (fun _ => .value "") [])).toOption.getD [], []⟩

theorem registered_builtinBindings :
    Registry.register [] "rdmx" (Builtin.generator (fun _ => .value "") []) =
      .ok builtinBindings.registry :=
  ok_getD_of_toBool (by decide +kernel) []

def builtinPipeline : Pipeline := ⟨.standard, ⟨2, 2⟩, builtinBindings, none⟩

/-- A section around badges. -/
def badgesText : Text :=
  "<!-- rdmx :section name:\"s\" -->\n".toList ++ "a <!-- rdmx :badges -->".toList ++ "old".toList ++
    "<!-- rdmx /:badges -->\n".toList ++ "<!-- rdmx /:section -->b".toList

def badgesOutput : Text :=
  "<!-- rdmx :section name:\"s\" -->\n".toList ++ "a <!-- rdmx :badges -->".toList ++
    "<!-- rdmx /:badges -->\n".toList ++ "<!-- rdmx /:section -->b".toList

/-- A section by itself. -/
def sectionText : Text := "a<!-- rdmx :section name:\"s\" -->\nb<!-- rdmx /:section -->\n".toList

def sectionBlock : Block :=
  ⟨⟨⟨"rdmx", "section"⟩, [⟨"name", .text "s", ⟨1, 21⟩⟩], "<!-- rdmx :section name:\"s\" -->\n".toList,
    ⟨1, 12⟩⟩, "<!-- rdmx /:section -->\n".toList⟩

theorem transform_changes_bodies_sections :
    (∃ document trees trees', Document.parse 2 .standard none badgesText = .ok document ∧
      builtinBindings.resolveAll document.file document.nodes = .ok trees ∧
      Call.sourceAll trees = badgesText ∧
      Regenerated builtinBindings document.file 2 [] trees trees' ∧
      Call.sourceAll trees' = badgesOutput) ∧
    (builtinPipeline.transform none sectionText).outcome = .ok sectionText := by
  have done : (builtinPipeline.transform none badgesText).outcome = .ok badgesOutput :=
    ok_of_toOption (by decide +kernel)
  have parsed : Document.parse 2 .standard none sectionText =
      .ok ⟨"nofile", [.text ['a'], .block sectionBlock [.text ['b']]]⟩ :=
    ok_of_toOption (by decide +kernel)
  have fine : (builtinBindings.resolveAll "nofile"
      [.text ['a'], .block sectionBlock [.text ['b']]]).toBool = true := by decide +kernel
  refine ⟨((transform_changes_bodies builtinPipeline none badgesText).1 _).mp done, ?_⟩
  obtain ⟨trees, bound⟩ := exists_ok_of_toBool fine
  have resolved := resolved_of_resolveAll bound
  have untouched : Untouched builtinBindings "nofile" [] trees := by
    cases resolved with
    | text resolved =>
      cases resolved with
      | @block _ call _ _ children _ called inside after =>
        cases inside with
        | text inside =>
          cases inside
          cases after
          have opens : (builtinBindings.script
              (builtinBindings.contextOf "nofile" [.text ['a']] call [.text ['b']] [])).IsTransparent := by
            have named : call.name = ⟨"rdmx", "section"⟩ := by rw [Call.name, block_of_call called]; rfl
            rw [script_of_registered registered_builtinBindings (by rw [contextOf, named])]
            rw [contextOf, named]
            exact Script.transparent_isTransparent
          exact .text (.block opens (.text .nil) .nil)
  have shallow : Tree.heightAll trees ≤ builtinPipeline.limits.levels := by
    rw [← Tree.heightAll_relabelAll Call.block, resolved.relabelAll]
    decide
  rw [(transform_changes_bodies builtinPipeline none sectionText).2 _ trees parsed bound untouched,
    if_pos shallow]

end Pipeline
end Regen
