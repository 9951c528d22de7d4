import Regen.Proofs.BlamedDirectives

/-! The first failure. Where only the built-in actions are called, a block is called
if all blocks around it are sections. Blocks are called in the order in which they
stand in the document, and the first one whose action fails is what the document
is refused for: what stands after it has no say. -/
namespace Regen

namespace Tree
variable {α : Type}

mutual

/-- The blocks of a tree in the order of the document, those inside a block only
where it is entered. -/
def reached (enters : α → Bool) : Tree α → List α
  | .text _ => []
  | .block mark body => mark :: if enters mark then reachedAll enters body else []

/-- The blocks of several trees in the order of the document. -/
def reachedAll (enters : α → Bool) : List (Tree α) → List α
  | [] => []
  | tree :: more => reached enters tree ++ reachedAll enters more

end

section Reached
variable {enters : α → Bool} {content : Text} {mark : α} {body more : List (Tree α)} {tree : Tree α}

@[simp] theorem reached_text : reached enters (.text content) = [] := by rw [reached]

@[simp] theorem reached_block : reached enters (.block mark body) =
    mark :: if enters mark then reachedAll enters body else [] := by rw [reached]

@[simp] theorem reachedAll_nil : reachedAll enters [] = [] := by rw [reachedAll]

@[simp] theorem reachedAll_cons :
    reachedAll enters (tree :: more) = reached enters tree ++ reachedAll enters more := by
  rw [reachedAll]

end Reached

/-- The way to a block in a forest: past the trees before it, and into the blocks
around it. -/
inductive Way (α : Type) where
  | here (mark : α)
  | past (tree : Tree α) (way : Way α)
  | inside (outer : α) (way : Way α)

namespace Way
variable {enters : α → Bool} {way : Way α} {trees : List (Tree α)}

/-- The blocks on the way, up to the one that it leads to. -/
def reached (enters : α → Bool) : Way α → List α
  | .here mark => [mark]
  | .past tree way => tree.reached enters ++ way.reached enters
  | .inside outer way => outer :: way.reached enters

/-- A forest in which the way leads to a block. Nothing is said of what the block
holds and of what stands after it, or after a block around it. -/
inductive In (enters : α → Bool) : Way α → List (Tree α) → Prop
  | here {mark : α} {body after : List (Tree α)} : In enters (.here mark) (.block mark body :: after)
  | past {tree : Tree α} {way : Way α} {more : List (Tree α)} :
    In enters way more → In enters (.past tree way) (tree :: more)
  | inside {outer : α} {way : Way α} {body after : List (Tree α)} : enters outer = true →
    In enters way body → In enters (.inside outer way) (.block outer body :: after)

/-- The blocks on the way are the first ones of the forest. -/
theorem In.reached_prefix (leads : way.In enters trees) :
    way.reached enters <+: reachedAll enters trees := by
  induction leads with
  | here => exact ⟨_, by rw [reachedAll_cons, reached_block]; rfl⟩
  | past _ ih =>
    rw [reached, reachedAll_cons]
    exact (List.prefix_append_right_inj _).mpr ih
  | inside enters _ ih =>
    rw [reached, reachedAll_cons, Tree.reached_block, if_pos enters, List.cons_append,
      List.cons_prefix_cons]
    exact ⟨rfl, ih.trans (List.prefix_append ..)⟩

end Way
end Tree

/-- The call opens a section of the built-in generator. -/
def Call.isSection (namespaceName : String) (call : Call) : Bool :=
  call.name == ⟨namespaceName, "section"⟩

section Follows
variable {conduct : Context → Script → Prop} {file : String} {vars : Table} {room : Nat}
  {body : List (Tree Call)} {passes : List (List Turn)} {ended : Except RenderStop Reply}

/-- A script that replies at once asks for nothing. -/
theorem Follows.passes_of_reply {answer : Reply}
    (follows : Follows conduct file vars room body (.reply answer) passes ended) : passes = [] := by
  cases follows
  rfl

/-- A transparent script asks for its children once, and ends as they do. -/
theorem Follows.pass_of_transparent
    (follows : Follows conduct file vars room body .transparent passes ended)
    (deep : ended ≠ .error .tooDeep) :
    ∃ below turns outcome, room = below + 1 ∧ passes = [turns] ∧
      Pass conduct file vars below [] body turns outcome ∧
      ended = outcome.map fun siblings => .content (Sibling.outputAll siblings) := by
  cases follows with
  | tooDeep => exact absurd rfl deep
  | stopped ran => exact ⟨_, _, _, rfl, rfl, ran, rfl⟩
  | rendered ran later =>
    obtain rfl := later.passes_of_reply
    obtain rfl := later.of_reply
    exact ⟨_, _, _, rfl, rfl, ran, rfl⟩

end Follows

namespace Bindings

section OnlyBuiltin
variable {bindings : Bindings} {namespaceName file : String} {evaluate : Evaluator}
  {installed : List Distribution} {room : Nat} {previous siblings : List Sibling}
  {trees body body' following following' : List (Tree Call)} {call : Call} {turns : List Turn}
  {halt : Halt} {passes : List (List Turn)}

/-- A pass fails at the end of a way. The blocks on the way are those that were called,
and the one at its end was called last and replied. In every forest the way leads to
the same failure. -/
structure FailsAt (bindings : Bindings) (namespaceName file : String) (room : Nat)
    (previous : List Sibling) (halt : Halt) (trees : List (Tree Call)) (turns : List Turn)
    (way : Tree.Way Call) : Prop where
  leads : way.In (Call.isSection namespaceName) trees
  called : way.reached (Call.isSection namespaceName) = Exchange.calls (Turn.exchangesOfPass turns)
  last : ∃ earlier context reply,
    Turn.exchangesOfPass turns = earlier ++ [.call context, .reply context reply]
  fails : ∀ trees', way.In (Call.isSection namespaceName) trees' →
    (bindings.renderAll file room previous trees').outcome = .error (.halt halt)

theorem FailsAt.text {content : Text} {way : Tree.Way Call}
    (failed : FailsAt bindings namespaceName file room (previous ++ [.text content]) halt trees turns way) :
    FailsAt bindings namespaceName file room previous halt (.text content :: trees) turns
      (.past (.text content) way) where
  leads := .past failed.leads
  called := by simpa [Tree.Way.reached] using failed.called
  last := failed.last
  fails := by
    intro trees' leads
    cases leads with
    | past leads =>
      rw [renderAll_text]
      exact failed.fails _ leads

/-- A block whose generator replies at once, but not with content. -/
theorem failsAt_here {reply : Reply} (answers : ∀ body following,
      bindings.script (bindings.contextOf file previous call body following) = .reply reply)
    (settled : reply.settle file call = .error halt) :
    FailsAt bindings namespaceName file room previous halt (.block call body :: trees)
      [.mk (bindings.contextOf file previous call body trees) [] (some reply)] (.here call) where
  leads := .here
  called := by simp [Tree.Way.reached, contextOf]
  last := ⟨[], _, _, rfl⟩
  fails := by
    intro trees' leads
    cases leads with
    | here =>
      rw [outcome_renderAll_block, answers]
      simp [Script.run, Except.bind, settled, mapError_error]

/-- A section fails as its children do. -/
theorem FailsAt.around {way : Tree.Way Call} (opens : call.isSection namespaceName = true)
    (hands : ∀ body following,
      bindings.script (bindings.contextOf file previous call body following) = .transparent)
    (failed : FailsAt bindings namespaceName file room [] halt body turns way) :
    FailsAt bindings namespaceName file (room + 1) previous halt (.block call body :: trees)
      [.mk (bindings.contextOf file previous call body trees) [turns] none] (.inside call way) where
  leads := .inside opens failed.leads
  called := by simp [Tree.Way.reached, contextOf, failed.called]
  last := by
    obtain ⟨earlier, context, reply, split⟩ := failed.last
    exact ⟨_ :: earlier, context, reply, by simp [split]; rfl⟩
  fails := by
    intro trees' leads
    cases leads with
    | inside _ leads =>
      refine outcome_renderAll_of_error ?_
      rw [hands, Script.transparent_isTransparent.outcome_run, childrenText, Run.outcome_bind,
        failed.fails _ leads]
      rfl

variable (only : Registry.register [] namespaceName (Builtin.generator evaluate installed) =
  .ok bindings.registry)
include only

/-- A section hands its children on, and all else is answered at once, whatever the
block holds and whatever stands after it. -/
theorem script_of_builtin (file : String) (previous : List Sibling) (call : Call) :
    (call.isSection namespaceName = true ∧ ∀ body following,
        bindings.script (bindings.contextOf file previous call body following) = .transparent) ∨
      (call.isSection namespaceName = false ∧ ∃ reply, ∀ body following,
        bindings.script (bindings.contextOf file previous call body following) = .reply reply) := by
  by_cases named : call.name.namespaceName = namespaceName
  · have script (body following : List (Tree Call)) :
        bindings.script (bindings.contextOf file previous call body following) =
          Builtin.generate evaluate installed call.name.action call.params
            (bindings.contextOf file previous call body following) :=
      script_of_registered only named
    by_cases opens : call.name.action = "section"
    · refine .inl ⟨by simp [Call.isSection, ← named, ← opens], fun body following => ?_⟩
      rw [script, opens]
      rfl
    · obtain ⟨reply, answered⟩ : ∃ reply, Builtin.generate evaluate installed call.name.action
          call.params (bindings.contextOf file previous call [] []) = .reply reply := by
        obtain ⟨reply, answered, -⟩ := Builtin.generate_content opens
        exact ⟨reply, answered⟩
      refine .inr ⟨?_, reply, fun body following => ?_⟩
      · simp only [Call.isSection, beq_eq_false_iff_ne, ne_eq]
        intro same
        exact opens (congrArg Header.ActionName.action same)
      · -- No built-in action looks at what a block holds or at what follows it.
        rw [script, ← answered]
        rfl
  · refine .inr ⟨?_, .foreign .none, fun body following => ?_⟩
    · simp only [Call.isSection, beq_eq_false_iff_ne, ne_eq]
      intro same
      exact named (congrArg Header.ActionName.namespaceName same)
    · obtain ⟨entry, -, found⟩ := Registry.entry?_register only
      simp only [script, contextOf, found, if_neg (Ne.symm named)]
      rfl

theorem script_following :
    bindings.script (bindings.contextOf file previous call body following) =
      bindings.script (bindings.contextOf file previous call body' following') := by
  rcases script_of_builtin only file previous call with ⟨-, hands⟩ | ⟨-, reply, answers⟩
  · rw [hands, hands]
  · rw [answers, answers]

/-- A call that is answered has called the blocks that are reached inside. -/
theorem calls_of_follows {reply : Reply}
    (inner : ∀ room turns siblings,
      Pass bindings.Conducts file bindings.vars room [] body turns (.ok siblings) →
        Exchange.calls (Turn.exchangesOfPass turns) =
          Tree.reachedAll (Call.isSection namespaceName) body)
    (follows : Follows bindings.Conducts file bindings.vars room body
      (bindings.script (bindings.contextOf file previous call body following)) passes (.ok reply)) :
    call :: Exchange.calls (Turn.exchangesOfPasses passes) =
      Tree.reached (Call.isSection namespaceName) (.block call body) := by
  rcases script_of_builtin only file previous call with ⟨opens, hands⟩ | ⟨shut, answer, answers⟩
  · rw [hands] at follows
    obtain ⟨below, turns, outcome, rfl, rfl, ran, same⟩ := follows.pass_of_transparent (by simp)
    cases outcome with
    | error stop => cases same
    | ok siblings => simp [opens, inner _ _ _ ran]
  · rw [answers] at follows
    obtain rfl := follows.passes_of_reply
    simp [shut]

/-- In a pass that gets through all blocks that are reached are called, in order. -/
theorem calls_of_pass
    (ran : Pass bindings.Conducts file bindings.vars room previous trees turns (.ok siblings)) :
    Exchange.calls (Turn.exchangesOfPass turns) =
      Tree.reachedAll (Call.isSection namespaceName) trees := by
  induction trees using Tree.forest_induction generalizing room previous turns siblings with
  | nil =>
    cases ran
    simp
  | text content more ih =>
    cases ran with
    | text later => simpa using ih later
  | block call body more inside after =>
    cases ran with
    | answered conducted follows settled later =>
      rw [conducted] at follows
      have called := calls_of_follows only (fun _ _ _ ran => inside ran) follows
      rw [Tree.reachedAll_cons, ← called, ← after later]
      simp

/-- A block that has got its content is passed, whatever follows. -/
theorem FailsAt.answered {content : Text} {way : Tree.Way Call}
    (follows : Follows bindings.Conducts file bindings.vars room body
      (bindings.script (bindings.contextOf file previous call body trees)) passes
      (.ok (.content content)))
    (failed : FailsAt bindings namespaceName file room (previous ++ [.block call content]) halt trees
      turns way) :
    FailsAt bindings namespaceName file room previous halt (.block call body :: trees)
      (.mk (bindings.contextOf file previous call body trees) passes (some (.content content)) :: turns)
      (.past (.block call body) way) where
  leads := .past failed.leads
  called := by
    have called := calls_of_follows only (fun _ _ _ ran => calls_of_pass only ran) follows
    rw [Tree.Way.reached, failed.called, ← called, Turn.exchangesOfPass_cons, Exchange.calls_append]
    simp [contextOf]
  last := by
    obtain ⟨earlier, context, reply, split⟩ := failed.last
    exact ⟨_ ++ earlier, context, reply, by rw [Turn.exchangesOfPass_cons, split, List.append_assoc]⟩
  fails := by
    have run := outcome_run_of_follows (fun _ _ _ ran => outcome_renderAll_of_pass ran) follows
    intro trees' leads
    cases leads with
    | past leads =>
      rw [outcome_renderAll_of_content (script_following only ▸ run)]
      exact failed.fails _ leads

/-- A pass that fails does so at the end of a way. -/
theorem failsAt_of_pass
    (ran : Pass bindings.Conducts file bindings.vars room previous trees turns
      (.error (.halt halt))) :
    ∃ way, FailsAt bindings namespaceName file room previous halt trees turns way := by
  induction trees using Tree.forest_induction generalizing room previous turns with
  | nil => cases ran
  | text content more ih =>
    cases ran with
    | text later =>
      obtain ⟨way, failed⟩ := ih later
      exact ⟨_, failed.text⟩
  | block call body more inside after =>
    have script := script_of_builtin only file previous call
    cases ran with
    | answered conducted follows settled later =>
      obtain ⟨way, failed⟩ := after later
      obtain rfl := Reply.content_of_settle settled
      rw [conducted] at follows
      exact ⟨_, failed.answered only follows⟩
    | reported conducted follows settled =>
      rw [conducted, ← contextOf] at follows
      rcases script with ⟨opens, hands⟩ | ⟨shut, reply, answers⟩
      · rw [hands] at follows
        obtain ⟨content, rfl⟩ := follows.content_of_transparent
        cases settled
      · rw [answers] at follows
        obtain rfl := follows.passes_of_reply
        cases follows.of_reply
        exact ⟨_, failsAt_here answers settled⟩
    | stopped conducted follows =>
      rw [conducted, ← contextOf] at follows
      rcases script with ⟨opens, hands⟩ | ⟨shut, reply, answers⟩
      · rw [hands] at follows
        obtain ⟨below, turns, outcome, rfl, rfl, ran, same⟩ := follows.pass_of_transparent (by simp)
        obtain rfl := map_eq_error_iff.mp same.symm
        obtain ⟨way, failed⟩ := inside ran
        exact ⟨_, failed.around opens hands⟩
      · rw [answers] at follows
        cases follows.of_reply

end OnlyBuiltin

/-- A fault belongs to the block whose own generator replied with what is no content or
wanted a variable or a section that is not there: the fault is about this block, the
reply is the last thing that happens, and the blocks around it do not reply. Where
only the built-in actions are called, blocks are called in the order of the document,
those in sections only, and the block at fault is the first one whose action fails:
all replies before are content, and in every forest that begins in the same way the
failure is the same. When none fails, all of these blocks have been called. -/
theorem faults_belong_to_directives (bindings : Bindings) (file : String) (room : Nat)
    (trees : List (Tree Call)) :
    (∃ turns, Pass bindings.Conducts file bindings.vars room [] trees turns
      (bindings.renderAll file room [] trees).outcome) ∧
    (∀ conduct turns fault,
      Pass conduct file bindings.vars room [] trees turns (.error (.halt (.fault fault))) →
      ∃ turn reply, Turn.EndsWith turns turn reply ∧ Blames file turn.context.call reply fault ∧
        turn.context.call ∈ Tree.postorderAll trees) ∧
    (∀ namespaceName evaluate installed, Registry.register [] namespaceName
        (Builtin.generator evaluate installed) = .ok bindings.registry →
      (∀ turns siblings,
        Pass bindings.Conducts file bindings.vars room [] trees turns (.ok siblings) →
        Exchange.calls (Turn.exchangesOfPass turns) =
            Tree.reachedAll (Call.isSection namespaceName) trees ∧
          Exchange.Fine (Turn.exchangesOfPass turns)) ∧
      ∀ turns fault,
        Pass bindings.Conducts file bindings.vars room [] trees turns (.error (.halt (.fault fault))) →
        ∃ earlier context reply, Turn.exchangesOfPass turns =
            earlier ++ [.call context, .reply context reply] ∧
          Exchange.Fine earlier ∧ Blames file context.call reply fault ∧
          Exchange.calls earlier ++ [context.call] <+:
            Tree.reachedAll (Call.isSection namespaceName) trees ∧
          ∃ way : Tree.Way Call, way.In (Call.isSection namespaceName) trees ∧
            way.reached (Call.isSection namespaceName) = Exchange.calls earlier ++ [context.call] ∧
            ∀ trees', way.In (Call.isSection namespaceName) trees' →
              (bindings.renderAll file room [] trees').outcome = .error (.halt (.fault fault))) := by
  refine ⟨?_, ?_, ?_⟩
  · obtain ⟨turns, ran, -⟩ := pass_of_renderAll bindings file room [] trees
    exact ⟨turns, ran⟩
  · intro conduct turns fault ran
    obtain ⟨turn, reply, ends, settled⟩ := ran.endsWith
    obtain ⟨nodes, pass, inside, mem⟩ := ends.stops.inside_of trees
    exact ⟨turn, reply, ends, (settle_eq_fault_iff.mp settled).1, inside.call_mem ran mem⟩
  · intro namespaceName evaluate installed only
    refine ⟨fun turns siblings ran => ⟨calls_of_pass only ran, ran.fine⟩, ?_⟩
    intro turns fault ran
    obtain ⟨way, leads, called, ⟨earlier, context, reply, split⟩, fails⟩ := failsAt_of_pass only ran
    obtain ⟨turn, answer, ends, settled⟩ := ran.endsWith
    obtain ⟨before, split', fine⟩ := ends.last
    have same : (earlier ++ [.call context]) ++ [.reply context reply] =
        before ++ [.reply turn.context answer] := by rw [← split', split, List.append_assoc]; rfl
    obtain ⟨rfl, last⟩ := List.append_inj' same rfl
    cases last
    have reached : way.reached (Call.isSection namespaceName) =
        Exchange.calls earlier ++ [turn.context.call] := by rw [called, split]; simp
    exact ⟨earlier, _, _, split, fine.of_append, (settle_eq_fault_iff.mp settled).1,
      reached ▸ leads.reached_prefix, way, leads, reached, fails⟩

/-- An evaluation of a section that is not opened at its level. -/
def strandedCall : Call :=
  ⟨⟨⟨⟨"rdmx", "eval"⟩, [⟨"section", .text "s", ⟨2, 18⟩⟩], "<!-- rdmx :eval section:\"s\" -->".toList,
    ⟨2, 11⟩⟩, "<!-- rdmx /:eval -->".toList⟩, "BuiltIn()", [(.text "section", .text "s")], none⟩

/-- Such an evaluation inside the section, and another one after the section. -/
def strandedTrees : List (Tree Call) :=
  [.block sectionCall [.block strandedCall []], .block strandedCall []]

def strandedFault : Fault :=
  ⟨.failure (.object "BuiltIn()" "BuiltIn()") (.text "eval") (.table [(.text "section", .text "s")])
    (.tuple [.text "section_not_found", .text "s"]), some ⟨2, 11⟩, some "nofile"⟩

theorem ran_strandedTrees : ∃ turns,
    Pass Pipeline.builtinBindings.Conducts "nofile" Pipeline.builtinBindings.vars 1 [] strandedTrees turns
      (.error (.halt (.fault strandedFault))) := by
  have opens (context : Context) (named : context.call.name = ⟨"rdmx", "section"⟩) :
      Pipeline.builtinBindings.script context = .transparent := by
    rw [script_of_registered Pipeline.registered_builtinBindings (by rw [named]), named]
    rfl
  let context := Pipeline.builtinBindings.contextOf "nofile" [] strandedCall [] []
  have stranded : Pipeline.builtinBindings.Conducts context
      (.reply (.failure (.tuple [.text "section_not_found", .text "s"]))) := by
    have named : context.call.name.namespaceName = "rdmx" := rfl
    rw [Conducts, script_of_registered Pipeline.registered_builtinBindings named]
    rfl
  exact ⟨_, .stopped (opens _ rfl).symm (.stopped (.reported stranded .reply rfl))⟩

/-- The evaluation inside the section is at fault: neither the section around it, nor
what comes after the section. -/
theorem faults_belong_to_directives_stranded :
    Registry.register [] "rdmx" (Builtin.generator (fun _ => .value "") []) =
      .ok Pipeline.builtinBindings.registry ∧
    ∃ turns turn reply, Pass Pipeline.builtinBindings.Conducts "nofile" Pipeline.builtinBindings.vars 1 []
        strandedTrees turns (.error (.halt (.fault strandedFault))) ∧
      Turn.EndsWith turns turn reply ∧ Blames "nofile" turn.context.call reply strandedFault ∧
      ∃ way : Tree.Way Call, way.In (Call.isSection "rdmx") strandedTrees ∧
        ∀ trees, way.In (Call.isSection "rdmx") trees →
          (Pipeline.builtinBindings.renderAll "nofile" 1 [] trees).outcome =
            .error (.halt (.fault strandedFault)) := by
  obtain ⟨turns, ran⟩ := ran_strandedTrees
  obtain ⟨-, blamed, builtin⟩ :=
    faults_belong_to_directives Pipeline.builtinBindings "nofile" 1 strandedTrees
  obtain ⟨turn, reply, ends, blames, -⟩ := blamed _ turns _ ran
  obtain ⟨-, -, -, -, -, -, -, way, leads, -, fails⟩ :=
    (builtin "rdmx" _ _ Pipeline.registered_builtinBindings).2 turns _ ran
  exact ⟨Pipeline.registered_builtinBindings, turns, turn, reply, ran, ends, blames, way, leads, fails⟩

end Bindings
end Regen
