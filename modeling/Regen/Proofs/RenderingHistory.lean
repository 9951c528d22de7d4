import Regen.Proofs.Regeneration

/-! Histories of rendering. A history says of every call of a generator what the
generator was handed, which passes over its children it asked for and what it
replied. Histories leave open what generators do, even from one call to the next;
what rendering hands them is the same in all histories: the siblings before the
block as they came out of this very pass, and all else as it was bound. -/
namespace Regen

/-- A call of a generator: what it was handed, the passes over its children that it
asked for, and what it replied unless one of them failed. -/
inductive Turn where
  | mk (context : Context) (passes : List (List Turn)) (reply : Option Reply)

namespace Turn

def context : Turn → Context
  | .mk context _ _ => context

def passes : Turn → List (List Turn)
  | .mk _ passes _ => passes

def reply : Turn → Option Reply
  | .mk _ _ reply => reply

mutual

/-- What the journal says of a call and the calls inside it. -/
def events : Turn → List Event
  | .mk context passes _ =>
    .rendering context.call.name context.file context.call.loc :: eventsOfPasses passes

/-- What the journal says of a pass. -/
def eventsOfPass : List Turn → List Event
  | [] => []
  | turn :: turns => turn.events ++ eventsOfPass turns

/-- What the journal says of several passes. -/
def eventsOfPasses : List (List Turn) → List Event
  | [] => []
  | pass :: passes => eventsOfPass pass ++ eventsOfPasses passes

end

end Turn

mutual

/-- A pass over siblings: the calls made for the blocks among them, and how the pass
ends. A script that is to answer a context is given by `conduct`. -/
inductive Pass (conduct : Context → Script → Prop) (file : String) (vars : Table) :
    (room : Nat) → (previous : List Sibling) → List (Tree Call) → List Turn →
      Except RenderStop (List Sibling) → Prop
  | nil {room : Nat} {previous : List Sibling} :
    Pass conduct file vars room previous [] [] (.ok previous)
  | text {room : Nat} {previous : List Sibling} {content : Text} {more : List (Tree Call)}
      {turns : List Turn} {outcome : Except RenderStop (List Sibling)} :
    Pass conduct file vars room (previous ++ [.text content]) more turns outcome →
    Pass conduct file vars room previous (.text content :: more) turns outcome
  | answered {room : Nat} {previous : List Sibling} {call : Call} {body more : List (Tree Call)}
      {script : Script} {passes : List (List Turn)} {reply : Reply} {content : Text}
      {turns : List Turn} {outcome : Except RenderStop (List Sibling)} :
    conduct ⟨file, call, body, previous, more, vars⟩ script →
    Follows conduct file vars room body script passes (.ok reply) →
    reply.settle file call = .ok content →
    Pass conduct file vars room (previous ++ [.block call content]) more turns outcome →
    Pass conduct file vars room previous (.block call body :: more)
      (.mk ⟨file, call, body, previous, more, vars⟩ passes (some reply) :: turns) outcome
  | reported {room : Nat} {previous : List Sibling} {call : Call} {body more : List (Tree Call)}
      {script : Script} {passes : List (List Turn)} {reply : Reply} {halt : Halt} :
    conduct ⟨file, call, body, previous, more, vars⟩ script →
    Follows conduct file vars room body script passes (.ok reply) →
    reply.settle file call = .error halt →
    Pass conduct file vars room previous (.block call body :: more)
      [.mk ⟨file, call, body, previous, more, vars⟩ passes (some reply)] (.error (.halt halt))
  | stopped {room : Nat} {previous : List Sibling} {call : Call} {body more : List (Tree Call)}
      {script : Script} {passes : List (List Turn)} {stop : RenderStop} :
    conduct ⟨file, call, body, previous, more, vars⟩ script →
    Follows conduct file vars room body script passes (.error stop) →
    Pass conduct file vars room previous (.block call body :: more)
      [.mk ⟨file, call, body, previous, more, vars⟩ passes none] (.error stop)

/-- A script that is followed: the passes over the children it asks for, and the
reply that it comes to. -/
inductive Follows (conduct : Context → Script → Prop) (file : String) (vars : Table) :
    (room : Nat) → (body : List (Tree Call)) → Script → List (List Turn) →
      Except RenderStop Reply → Prop
  | reply {room : Nat} {body : List (Tree Call)} {answer : Reply} :
    Follows conduct file vars room body (.reply answer) [] (.ok answer)
  | tooDeep {body : List (Tree Call)} {next : Text → Script} :
    Follows conduct file vars 0 body (.withChildren next) [] (.error .tooDeep)
  | stopped {room : Nat} {body : List (Tree Call)} {next : Text → Script} {turns : List Turn}
      {stop : RenderStop} :
    Pass conduct file vars room [] body turns (.error stop) →
    Follows conduct file vars (room + 1) body (.withChildren next) [turns] (.error stop)
  | rendered {room : Nat} {body : List (Tree Call)} {next : Text → Script} {turns : List Turn}
      {siblings : List Sibling} {passes : List (List Turn)} {outcome : Except RenderStop Reply} :
    Pass conduct file vars room [] body turns (.ok siblings) →
    Follows conduct file vars (room + 1) body (next (Sibling.outputAll siblings)) passes outcome →
    Follows conduct file vars (room + 1) body (.withChildren next) (turns :: passes) outcome

end

/-- A pass inside another: over the siblings themselves, or over the children of a
block, on behalf of its generator. -/
inductive Inside : (trees : List (Tree Call)) → (turns : List Turn) → List (Tree Call) →
    List Turn → Prop
  | self {trees : List (Tree Call)} {turns : List Turn} : Inside trees turns trees turns
  | children {trees nodes : List (Tree Call)} {turns pass inner : List Turn} {turn : Turn} :
    turn ∈ turns → pass ∈ turn.passes → Inside turn.context.children pass nodes inner →
    Inside trees turns nodes inner

namespace Bindings

/-- What the generators of a registry do. -/
def Conducts (bindings : Bindings) (context : Context) (script : Script) : Prop :=
  script = bindings.script context

section Renders
variable {bindings : Bindings} {file : String} {room : Nat} {previous : List Sibling}
  {body trees : List (Tree Call)}

/-- A pass calls the generator of a block and goes on with the content it settles on. -/
theorem renderAll_block (bindings : Bindings) (file : String) (room : Nat) (previous : List Sibling)
    (call : Call) (body more : List (Tree Call)) :
    bindings.renderAll file room previous (.block call body :: more) =
      let run := (bindings.script (bindings.contextOf file previous call body more)).run
        (bindings.childrenText file room body)
      (⟨.rendering call.name file call.loc :: run.events, run.outcome.bind fun reply =>
          (reply.settle file call).mapError RenderStop.halt⟩ : Run RenderStop Text).bind fun content =>
        bindings.renderAll file room (previous ++ [.block call content]) more := by
  rw [renderAll, render_block]
  generalize (bindings.script (bindings.contextOf file previous call body more)).run
    (bindings.childrenText file room body) = run
  obtain ⟨events, outcome⟩ := run
  cases outcome with
  | error stop => simp [Run.bind, Run.record, Except.bind]
  | ok reply =>
    cases settled : (reply.settle file call).mapError RenderStop.halt <;>
      simp [Run.bind, Run.record, Run.ofExcept, Run.pure, Except.bind, settled]

/-- A script is followed the way it runs, given that the passes over the children are
passes. -/
theorem follows_of_run (room : Nat)
    (inner : ∀ room, ∃ turns, Pass bindings.Conducts file bindings.vars room [] body turns
      (bindings.renderAll file room [] body).outcome ∧
      (bindings.renderAll file room [] body).events = Turn.eventsOfPass turns) (script : Script) :
    ∃ passes, Follows bindings.Conducts file bindings.vars room body script passes
        (script.run (bindings.childrenText file room body)).outcome ∧
      (script.run (bindings.childrenText file room body)).events = Turn.eventsOfPasses passes := by
  -- The script goes on with the text of the children, the pass over which is given.
  induction script with
  | reply answer => exact ⟨[], .reply, rfl⟩
  | withChildren next ih =>
    cases room with
    | zero => exact ⟨[], .tooDeep, rfl⟩
    | succ room =>
      obtain ⟨turns, pass, events⟩ := inner room
      cases ended : (bindings.renderAll file room [] body).outcome with
      | error stop =>
        have rendered : (bindings.childrenText file (room + 1) body).outcome = .error stop := by
          rw [childrenText, Run.outcome_bind, ended]
          rfl
        refine ⟨[turns], ?_, ?_⟩
        · rw [Script.run, Run.bind_of_error rendered]
          rw [ended] at pass
          exact .stopped pass
        · rw [Script.run, Run.bind_of_error rendered, childrenText, Run.bind_of_error ended, events]
          simp [Turn.eventsOfPasses]
      | ok siblings =>
        have rendered : (bindings.childrenText file (room + 1) body).outcome =
            .ok (Sibling.outputAll siblings) := by
          rw [childrenText, Run.outcome_bind, ended]
          rfl
        obtain ⟨passes, follows, later⟩ := ih (Sibling.outputAll siblings)
        refine ⟨turns :: passes, ?_, ?_⟩
        · rw [Script.run, Run.bind_of_ok rendered]
          rw [ended] at pass
          exact .rendered pass follows
        · rw [Script.run, Run.bind_of_ok rendered, later, childrenText, Run.bind_of_ok ended, events]
          simp [Turn.eventsOfPasses, Run.pure, Run.ofExcept]

theorem pass_of_renderAll (bindings : Bindings) (file : String) (room : Nat)
    (previous : List Sibling) (trees : List (Tree Call)) :
    ∃ turns, Pass bindings.Conducts file bindings.vars room previous trees turns
        (bindings.renderAll file room previous trees).outcome ∧
      (bindings.renderAll file room previous trees).events = Turn.eventsOfPass turns := by
  induction trees using Tree.forest_induction generalizing room previous with
  | nil =>
    exact ⟨[], .nil, rfl⟩
  | text content more ih =>
    obtain ⟨turns, pass, events⟩ := ih room (previous ++ [.text content])
    rw [renderAll_text]
    exact ⟨turns, .text pass, events⟩
  | block call body more inside after =>
    rw [renderAll_block]
    obtain ⟨passes, follows, events⟩ := follows_of_run room (fun room => inside room [])
      (bindings.script (bindings.contextOf file previous call body more))
    generalize (bindings.script (bindings.contextOf file previous call body more)).run
      (bindings.childrenText file room body) = run at follows events ⊢
    obtain ⟨happened, outcome⟩ := run
    dsimp only at follows events ⊢
    subst events
    cases outcome with
    | error stop =>
      exact ⟨[.mk _ passes none], .stopped rfl follows,
        by simp [Turn.eventsOfPass, Turn.events, Except.bind, Run.bind]⟩
    | ok reply =>
      simp only [Except.bind]
      cases settled : reply.settle file call with
      | error halt =>
        exact ⟨_, .reported rfl follows settled,
          by simp [Turn.eventsOfPass, Turn.events, Run.bind, mapError_error]⟩
      | ok content =>
        obtain ⟨turns, pass, later⟩ := after room (previous ++ [.block call content])
        exact ⟨_, .answered rfl follows settled pass,
          by simp [Turn.eventsOfPass, Turn.events, Run.bind, mapError_ok, later]⟩

end Renders
end Bindings

namespace Tree
variable {α : Type}

def isBlock : Tree α → Bool
  | .text _ => false
  | .block .. => true

/-- The number of blocks among the first trees. -/
def blocksBefore (trees : List (Tree α)) (index : Nat) : Nat := (trees.take index).countP isBlock

@[simp] theorem blocksBefore_zero (trees : List (Tree α)) : blocksBefore trees 0 = 0 := by
  simp [blocksBefore]

@[simp] theorem blocksBefore_text {content : Text} {more : List (Tree α)} {index : Nat} :
    blocksBefore (.text content :: more) (index + 1) = blocksBefore more index := by
  simp [blocksBefore, isBlock]

@[simp] theorem blocksBefore_block {mark : α} {body more : List (Tree α)} {index : Nat} :
    blocksBefore (.block mark body :: more) (index + 1) = blocksBefore more index + 1 := by
  rw [blocksBefore, List.take_succ_cons, List.countP_cons, isBlock]
  rfl

end Tree

/-- What has become of the node at an index in a pass: a text is left as it is, and a
block has the content that its generator replied in this pass. -/
inductive Became (nodes : List (Tree Call)) (pass : List Turn) (index : Nat) : Sibling → Prop
  | text {content : Text} : nodes[index]? = some (.text content) →
    Became nodes pass index (.text content)
  | block {call : Call} {body : List (Tree Call)} {turn : Turn} {content : Text} :
    nodes[index]? = some (.block call body) →
    pass[Tree.blocksBefore nodes index]? = some turn → turn.context.call = call →
    turn.reply = some (.content content) → Became nodes pass index (.block call content)

/-- What is handed to the generator of the block at an index: the siblings before the
block as the pass has left them, and all that follows or stands inside as bound. -/
structure Turn.Sees (nodes : List (Tree Call)) (pass : List Turn) (index : Nat) (turn : Turn) :
    Prop where
  block : nodes[index]? = some (.block turn.context.call turn.context.children)
  following : turn.context.following = nodes.drop (index + 1)
  length : turn.context.previous.length = index
  previous : ∀ i sibling, turn.context.previous[i]? = some sibling → Became nodes pass i sibling

/-- The node at an index opens a section of a name. -/
def Opens (nodes : List (Tree Call)) (name : String) (index : Nat) : Prop :=
  ∃ call body, nodes[index]? = some (.block call body) ∧ call.sectionName = some name

section Became
variable {nodes more : List (Tree Call)} {pass turns : List Turn} {turn : Turn} {index : Nat}
  {sibling sibling' : Sibling} {content : Text} {call : Call} {body : List (Tree Call)} {name : String}

theorem Became.after_text (became : Became more turns index sibling) :
    Became (.text content :: more) turns (index + 1) sibling := by
  cases became with
  | text stands => exact .text stands
  | block stands turned called replied =>
    exact .block stands (by rw [Tree.blocksBefore_text]; exact turned) called replied

theorem Became.after_block (became : Became more turns index sibling) :
    Became (.block call body :: more) (turn :: turns) (index + 1) sibling := by
  cases became with
  | text stands => exact .text stands
  | block stands turned called replied =>
    exact .block stands (by rw [Tree.blocksBefore_block]; exact turned) called replied

theorem Became.unique (became : Became nodes pass index sibling)
    (became' : Became nodes pass index sibling') : sibling = sibling' := by
  cases became with
  | text stands =>
    cases became' with
    | text stands' =>
      rw [stands] at stands'
      cases stands'
      rfl
    | block stands' =>
      rw [stands] at stands'
      cases stands'
  | block stands turned called replied =>
    cases became' with
    | text stands' =>
      rw [stands] at stands'
      cases stands'
    | block stands' turned' called' replied' =>
      rw [stands] at stands'
      rw [turned] at turned'
      cases stands'
      cases turned'
      rw [replied] at replied'
      cases replied'
      rfl

theorem Became.opens_iff (became : Became nodes pass index sibling) :
    Opens nodes name index ↔ sibling.sectionName? = some name := by
  cases became with
  | text stands => simp [Opens, stands, Sibling.sectionName?]
  | block stands => simp [Opens, stands, Sibling.sectionName?]

end Became

namespace Sibling

/-- The section of a name that a sibling is. -/
def section? (name : String) : Sibling → Option Section
  | .text _ => none
  | .block call content => if call.sectionName = some name then some ⟨call, content⟩ else none

theorem section?_eq_none_iff {name : String} {sibling : Sibling} :
    sibling.section? name = none ↔ sibling.sectionName? ≠ some name := by
  cases sibling <;> simp [section?, sectionName?]

theorem section?_eq_some_iff {name : String} {sibling : Sibling} {found : Section} :
    sibling.section? name = some found ↔
      sibling = .block found.call found.content ∧ found.call.sectionName = some name := by
  cases sibling with
  | text content => simp [section?]
  | block call content =>
    obtain ⟨call', content'⟩ := found
    simp only [section?, Option.ite_none_right_eq_some, Option.some.injEq, Section.mk.injEq,
      Sibling.block.injEq]
    constructor
    · rintro ⟨named, rfl, rfl⟩
      exact ⟨⟨rfl, rfl⟩, named⟩
    · rintro ⟨⟨rfl, rfl⟩, named⟩
      exact ⟨named, rfl, rfl⟩

end Sibling

namespace Context

section Sections
variable {name : String} {previous : List Sibling} {found : Section}

theorem lastSection?_eq : lastSection? name previous = previous.reverse.findSome? (Sibling.section? name) :=
  rfl

/-- The section found is the last one of the name. -/
theorem lastSection?_eq_some_iff : lastSection? name previous = some found ↔
    ∃ before after, previous = before ++ .block found.call found.content :: after ∧
      found.call.sectionName = some name ∧
      ∀ sibling ∈ after, sibling.sectionName? ≠ some name := by
  simp only [lastSection?_eq, List.findSome?_eq_some_iff, Sibling.section?_eq_some_iff,
    Sibling.section?_eq_none_iff]
  constructor
  · rintro ⟨after, sibling, before, order, ⟨rfl, named⟩, later⟩
    have order := congrArg List.reverse order
    rw [List.reverse_reverse, List.reverse_append, List.reverse_cons, List.append_assoc] at order
    exact ⟨before.reverse, after.reverse, order, named, by simpa using later⟩
  · rintro ⟨before, after, rfl, named, later⟩
    exact ⟨after.reverse, _, before.reverse, by simp, ⟨rfl, named⟩, by simpa using later⟩

theorem lastSection?_eq_none_iff : lastSection? name previous = none ↔
    ∀ sibling ∈ previous, sibling.sectionName? ≠ some name := by
  simp only [lastSection?_eq, List.findSome?_eq_none_iff, Sibling.section?_eq_none_iff, List.mem_reverse]

end Sections
end Context

namespace Turn.Sees

section Sections
variable {nodes : List (Tree Call)} {pass : List Turn} {index i : Nat} {turn : Turn} {name : String}
  {found : Section}

/-- Every node before the block has become a sibling. -/
theorem became (sees : turn.Sees nodes pass index) (below : i < index) :
    ∃ sibling, turn.context.previous[i]? = some sibling ∧ Became nodes pass i sibling := by
  rw [← sees.length] at below
  have stands := List.getElem?_eq_getElem below
  exact ⟨_, stands, sees.previous i _ stands⟩

/-- A lookup finds the last section of the name that was opened before the block. -/
theorem section?_eq_some_iff (sees : turn.Sees nodes pass index) :
    turn.context.section? name = some found ↔
      ∃ i < index, Became nodes pass i (.block found.call found.content) ∧
        found.call.sectionName = some name ∧ ∀ j, i < j → j < index → ¬Opens nodes name j := by
  rw [Context.section?, Context.lastSection?_eq_some_iff]
  constructor
  · rintro ⟨before, after, order, named, later⟩
    have size := sees.length
    rw [order] at size
    simp only [List.length_append, List.length_cons] at size
    have here : turn.context.previous[before.length]? = some (.block found.call found.content) := by
      rw [order]
      simp
    refine ⟨before.length, by omega, sees.previous _ _ here, named, ?_⟩
    intro j above below opens
    obtain ⟨sibling, stands, became⟩ := sees.became below
    rw [order, List.getElem?_append_right (by omega)] at stands
    obtain ⟨offset, rfl⟩ : ∃ offset, j = before.length + (offset + 1) :=
      ⟨j - before.length - 1, by omega⟩
    rw [Nat.add_sub_cancel_left, List.getElem?_cons_succ] at stands
    exact later sibling (List.mem_of_getElem? stands) (became.opens_iff.mp opens)
  · rintro ⟨i, below, became, named, later⟩
    obtain ⟨sibling, stands, became'⟩ := sees.became below
    obtain rfl := became.unique became'
    obtain ⟨inBounds, same⟩ := List.getElem?_eq_some_iff.mp stands
    refine ⟨turn.context.previous.take i, turn.context.previous.drop (i + 1), ?_, named, ?_⟩
    · rw [← same, List.getElem_cons_drop, List.take_append_drop]
    · intro sibling mem opened
      obtain ⟨offset, stands⟩ := List.mem_iff_getElem?.mp mem
      rw [List.getElem?_drop] at stands
      have bound := (List.getElem?_eq_some_iff.mp stands).1
      rw [sees.length] at bound
      exact later _ (by omega) bound ((sees.previous _ _ stands).opens_iff.mpr opened)

theorem section?_eq_none_iff (sees : turn.Sees nodes pass index) :
    turn.context.section? name = none ↔ ∀ i < index, ¬Opens nodes name i := by
  rw [Context.section?, Context.lastSection?_eq_none_iff]
  constructor
  · intro none i below opens
    obtain ⟨sibling, stands, became⟩ := sees.became below
    exact none sibling (List.mem_of_getElem? stands) (became.opens_iff.mp opens)
  · intro none sibling mem opened
    obtain ⟨i, stands⟩ := List.mem_iff_getElem?.mp mem
    have bound := (List.getElem?_eq_some_iff.mp stands).1
    rw [sees.length] at bound
    exact none i bound ((sees.previous _ _ stands).opens_iff.mpr opened)

end Sections
end Turn.Sees

section Pass
variable {conduct : Context → Script → Prop} {file : String} {vars : Table} {room : Nat}
  {previous siblings : List Sibling} {trees body nodes : List (Tree Call)} {turns pass inner : List Turn}
  {script : Script} {passes : List (List Turn)} {turn : Turn} {halt : Halt}

theorem Reply.content_of_settle {reply : Reply} {call : Call} {content : Text}
    (settled : reply.settle file call = .ok content) : reply = .content content := by
  cases reply <;> simp_all [settle]

/-- The turns of a pass are those of its blocks in order, each of which sees its own
siblings. -/
theorem Pass.sees_after {outcome : Except RenderStop (List Sibling)}
    (ran : Pass conduct file vars room previous trees turns outcome) {k : Nat}
    (taken : turns[k]? = some turn) :
    ∃ i seen, Tree.blocksBefore trees i = k ∧
      trees[i]? = some (.block turn.context.call turn.context.children) ∧
      turn.context.following = trees.drop (i + 1) ∧ turn.context.previous = previous ++ seen ∧
      seen.length = i ∧ ∀ j sibling, seen[j]? = some sibling → Became trees turns j sibling := by
  induction trees generalizing previous turns k with
  | nil =>
    cases ran
    cases taken
  | cons tree more ih =>
    have first : ∀ {context passes reply} {rest : List Turn}, context.previous = previous →
        context.following = more → tree = .block context.call context.children →
        (Turn.mk context passes reply :: rest)[0]? = some turn →
        ∃ i seen, Tree.blocksBefore (tree :: more) i = 0 ∧
          (tree :: more)[i]? = some (.block turn.context.call turn.context.children) ∧
          turn.context.following = (tree :: more).drop (i + 1) ∧
          turn.context.previous = previous ++ seen ∧ seen.length = i ∧
          ∀ j sibling, seen[j]? = some sibling →
            Became (tree :: more) (Turn.mk context passes reply :: rest) j sibling := by
      intro context passes reply rest before after stands taken
      cases taken
      refine ⟨0, [], Tree.blocksBefore_zero _, congrArg some stands, after, ?_, rfl, nofun⟩
      rw [List.append_nil]
      exact before
    cases ran with
    | @text _ _ content _ _ _ later =>
      obtain ⟨i, seen, rank, stands, following, before, size, became⟩ := ih later taken
      refine ⟨i + 1, .text content :: seen, ?_, stands, following, ?_, by simp [size], ?_⟩
      · rw [Tree.blocksBefore_text, rank]
      · rw [before, List.append_assoc, List.singleton_append]
      · intro j sibling found
        cases j with
        | zero =>
          cases found
          exact .text rfl
        | succ j => exact (became j sibling found).after_text
    | @answered _ _ call body _ _ passes reply content turns _ _ _ settled later =>
      cases k with
      | zero => exact first rfl rfl rfl taken
      | succ k =>
        obtain ⟨i, seen, rank, stands, following, before, size, became⟩ := ih later taken
        refine ⟨i + 1, .block call content :: seen, ?_, stands, following, ?_, by simp [size], ?_⟩
        · rw [Tree.blocksBefore_block, rank]
        · rw [before, List.append_assoc, List.singleton_append]
        · intro j sibling found
          cases j with
          | zero =>
            cases found
            exact .block rfl rfl rfl (congrArg some (Reply.content_of_settle settled))
          | succ j => exact (became j sibling found).after_block
    | reported =>
      cases k with
      | zero => exact first rfl rfl rfl taken
      | succ k => cases taken
    | stopped =>
      cases k with
      | zero => exact first rfl rfl rfl taken
      | succ k => cases taken

/-- A pass that gets through leaves every node as what it has become. -/
theorem Pass.became (ran : Pass conduct file vars room previous trees turns (.ok siblings)) :
    ∃ seen, siblings = previous ++ seen ∧ seen.length = trees.length ∧
      ∀ j sibling, seen[j]? = some sibling → Became trees turns j sibling := by
  induction trees generalizing previous turns with
  | nil =>
    cases ran
    exact ⟨[], (List.append_nil _).symm, rfl, nofun⟩
  | cons tree more ih =>
    cases ran with
    | @text _ _ content _ _ _ later =>
      obtain ⟨seen, rfl, size, became⟩ := ih later
      refine ⟨.text content :: seen, by simp, by simp [size], ?_⟩
      intro j sibling found
      cases j with
      | zero =>
        cases found
        exact .text rfl
      | succ j => exact (became j sibling found).after_text
    | @answered _ _ call _ _ _ _ _ content _ _ _ _ settled later =>
      obtain ⟨seen, rfl, size, became⟩ := ih later
      refine ⟨.block call content :: seen, by simp, by simp [size], ?_⟩
      intro j sibling found
      cases j with
      | zero =>
        cases found
        exact .block rfl rfl rfl (congrArg some (Reply.content_of_settle settled))
      | succ j => exact (became j sibling found).after_block

/-- What a script asks for are passes over the children, and it stops when one does. -/
theorem Follows.pass_of_mem {outcome : Except RenderStop Reply}
    (follows : Follows conduct file vars room body script passes outcome) (mem : pass ∈ passes) :
    ∃ below ended, Pass conduct file vars below [] body pass ended ∧
      ∀ stop, ended = .error stop → outcome = .error stop := by
  induction script generalizing passes with
  | reply answer =>
    cases follows
    cases mem
  | withChildren next ih =>
    cases follows with
    | tooDeep => cases mem
    | stopped ran =>
      obtain rfl := List.mem_singleton.mp mem
      refine ⟨_, _, ran, ?_⟩
      rintro stop same
      cases same
      rfl
    | rendered ran later =>
      rcases List.mem_cons.mp mem with rfl | mem
      · exact ⟨_, _, ran, nofun⟩
      · exact ih _ later mem

/-- Every pass inside a turn is one over the children of its block, and the pass
around it stops when it does. -/
theorem Pass.children {outcome : Except RenderStop (List Sibling)}
    (ran : Pass conduct file vars room previous trees turns outcome) (taken : turn ∈ turns)
    (asked : pass ∈ turn.passes) :
    ∃ below ended, Pass conduct file vars below [] turn.context.children pass ended ∧
      ∀ stop, ended = .error stop → outcome = .error stop := by
  induction trees generalizing previous turns with
  | nil =>
    cases ran
    cases taken
  | cons tree more ih =>
    cases ran with
    | text later => exact ih later taken
    | answered _ follows _ later =>
      rcases List.mem_cons.mp taken with rfl | taken
      · obtain ⟨below, ended, ran, stops⟩ := follows.pass_of_mem asked
        exact ⟨below, ended, ran, fun stop failed => nomatch stops stop failed⟩
      · exact ih later taken
    | reported _ follows =>
      obtain rfl := List.mem_singleton.mp taken
      obtain ⟨below, ended, ran, stops⟩ := follows.pass_of_mem asked
      exact ⟨below, ended, ran, fun stop failed => nomatch stops stop failed⟩
    | stopped _ follows =>
      obtain rfl := List.mem_singleton.mp taken
      obtain ⟨below, ended, ran, stops⟩ := follows.pass_of_mem asked
      refine ⟨below, ended, ran, fun stop failed => ?_⟩
      cases stops stop failed
      rfl

/-- A turn follows a script for its context, and replies what that comes to. -/
theorem Pass.follows {outcome : Except RenderStop (List Sibling)}
    (ran : Pass conduct file vars room previous trees turns outcome) (taken : turn ∈ turns) :
    ∃ script ended, conduct turn.context script ∧
      Follows conduct file vars room turn.context.children script turn.passes ended ∧
      turn.reply = ended.toOption := by
  induction trees generalizing previous turns with
  | nil =>
    cases ran
    cases taken
  | cons tree more ih =>
    cases ran with
    | text later => exact ih later taken
    | answered conducted follows _ later =>
      rcases List.mem_cons.mp taken with rfl | taken
      · exact ⟨_, _, conducted, follows, rfl⟩
      · exact ih later taken
    | reported conducted follows =>
      obtain rfl := List.mem_singleton.mp taken
      exact ⟨_, _, conducted, follows, rfl⟩
    | stopped conducted follows =>
      obtain rfl := List.mem_singleton.mp taken
      exact ⟨_, _, conducted, follows, rfl⟩

/-- A turn is one of a block among the siblings. -/
theorem Pass.block_mem {outcome : Except RenderStop (List Sibling)}
    (ran : Pass conduct file vars room previous trees turns outcome) (taken : turn ∈ turns) :
    Tree.block turn.context.call turn.context.children ∈ trees := by
  obtain ⟨k, taken⟩ := List.mem_iff_getElem?.mp taken
  obtain ⟨i, _, -, stands, -⟩ := ran.sees_after taken
  exact List.mem_of_getElem? stands

/-- A pass hands the name and the variables it was given to every generator it calls. -/
theorem Pass.hands {outcome : Except RenderStop (List Sibling)}
    (ran : Pass conduct file vars room previous trees turns outcome) (taken : turn ∈ turns) :
    turn.context.file = file ∧ turn.context.vars = vars := by
  induction trees generalizing previous turns with
  | nil =>
    cases ran
    cases taken
  | cons tree more ih =>
    cases ran with
    | text later => exact ih later taken
    | answered _ _ _ later =>
      rcases List.mem_cons.mp taken with rfl | taken
      · exact ⟨rfl, rfl⟩
      · exact ih later taken
    | reported =>
      rw [List.mem_singleton.mp taken]
      exact ⟨rfl, rfl⟩
    | stopped =>
      rw [List.mem_singleton.mp taken]
      exact ⟨rfl, rfl⟩

theorem Pass.file_eq {outcome : Except RenderStop (List Sibling)}
    (ran : Pass conduct file vars room previous trees turns outcome) (taken : turn ∈ turns) :
    turn.context.file = file := (ran.hands taken).1

theorem Pass.vars_eq {outcome : Except RenderStop (List Sibling)}
    (ran : Pass conduct file vars room previous trees turns outcome) (taken : turn ∈ turns) :
    turn.context.vars = vars := (ran.hands taken).2

/-- A pass inside another is a pass, and the other stops when it does. -/
theorem Inside.ran {outcome : Except RenderStop (List Sibling)}
    (inside : Inside trees turns nodes inner)
    (ran : Pass conduct file vars room [] trees turns outcome) :
    ∃ below ended, Pass conduct file vars below [] nodes inner ended ∧
      ∀ stop, ended = .error stop → outcome = .error stop := by
  induction inside generalizing room outcome with
  | self => exact ⟨room, outcome, ran, fun stop failed => failed⟩
  | children taken asked _ ih =>
    obtain ⟨below, ended, ran, stops⟩ := ran.children taken asked
    obtain ⟨lowest, last, ran, stops'⟩ := ih ran
    exact ⟨lowest, last, ran, fun stop failed => stops stop (stops' stop failed)⟩

/-- A turn reported, on account of its reply. -/
def Turn.Reports (file : String) (halt : Halt) (turn : Turn) : Prop :=
  ∃ reply, turn.reply = some reply ∧ reply.settle file turn.context.call = .error halt

/-- Nothing comes after a report. -/
theorem Turn.Reports.stops {outcome : Except RenderStop (List Sibling)}
    (reports : turn.Reports file halt)
    (ran : Pass conduct file vars room previous trees turns outcome) (taken : turn ∈ turns) :
    outcome = .error (.halt halt) := by
  obtain ⟨reply, replied, settled⟩ := reports
  induction trees generalizing previous turns with
  | nil =>
    cases ran
    cases taken
  | cons tree more ih =>
    cases ran with
    | text later => exact ih later taken
    | answered _ _ fine later =>
      rcases List.mem_cons.mp taken with rfl | taken
      · cases replied
        rw [Turn.context, fine] at settled
        cases settled
      · exact ih later taken
    | reported _ _ failed =>
      obtain rfl := List.mem_singleton.mp taken
      cases replied
      rw [Turn.context, failed] at settled
      cases settled
      rfl
    | stopped =>
      obtain rfl := List.mem_singleton.mp taken
      cases replied

theorem Follows.halted
    (follows : Follows conduct file vars room body script passes (.error (.halt halt))) :
    ∃ below pass, room = below + 1 ∧ pass ∈ passes ∧
      Pass conduct file vars below [] body pass (.error (.halt halt)) := by
  induction script generalizing passes with
  | reply answer => cases follows
  | withChildren next ih =>
    cases follows with
    | stopped ran => exact ⟨_, _, rfl, List.mem_singleton_self _, ran⟩
    | rendered ran later =>
      obtain ⟨below, pass, deep, mem, ran⟩ := ih _ later
      exact ⟨below, pass, deep, List.mem_cons_of_mem _ mem, ran⟩

theorem Pass.halted (ran : Pass conduct file vars room previous trees turns (.error (.halt halt))) :
    ∃ turn ∈ turns, turn.Reports file halt ∨ ∃ below pass, room = below + 1 ∧ pass ∈ turn.passes ∧
      Pass conduct file vars below [] turn.context.children pass (.error (.halt halt)) := by
  induction trees generalizing previous turns with
  | nil => cases ran
  | cons tree more ih =>
    cases ran with
    | text later => exact ih later
    | answered _ _ _ later =>
      obtain ⟨turn, mem, why⟩ := ih later
      exact ⟨turn, List.mem_cons_of_mem _ mem, why⟩
    | reported _ _ settled => exact ⟨_, List.mem_singleton_self _, .inl ⟨_, rfl, settled⟩⟩
    | stopped _ follows => exact ⟨_, List.mem_singleton_self _, .inr follows.halted⟩

/-- A report out of a pass goes back to the reply of a generator, here or further in. -/
theorem Pass.reported_inside (ran : Pass conduct file vars room [] trees turns (.error (.halt halt))) :
    ∃ nodes pass, Inside trees turns nodes pass ∧ ∃ turn ∈ pass, turn.Reports file halt := by
  induction room generalizing trees turns with
  | zero =>
    obtain ⟨turn, mem, reports | ⟨below, _, deep, -⟩⟩ := ran.halted
    · exact ⟨trees, turns, .self, turn, mem, reports⟩
    · cases deep
  | succ room ih =>
    obtain ⟨turn, mem, reports | ⟨below, pass, deep, asked, ran⟩⟩ := ran.halted
    · exact ⟨trees, turns, .self, turn, mem, reports⟩
    · cases deep
      obtain ⟨nodes, inner, inside, found⟩ := ih ran
      exact ⟨nodes, inner, .children mem asked inside, found⟩

/-- A pass ends in a report exactly when the reply of a generator makes for it. -/
theorem Pass.halts_iff {outcome : Except RenderStop (List Sibling)}
    (ran : Pass conduct file vars room [] trees turns outcome) :
    outcome = .error (.halt halt) ↔
      ∃ nodes pass, Inside trees turns nodes pass ∧ ∃ turn ∈ pass, turn.Reports file halt := by
  constructor
  · rintro rfl
    exact ran.reported_inside
  · rintro ⟨nodes, pass, inside, turn, taken, reports⟩
    obtain ⟨below, ended, inner, stops⟩ := inside.ran ran
    exact stops _ (reports.stops inner taken)

theorem Pass.sees {outcome : Except RenderStop (List Sibling)}
    (ran : Pass conduct file vars room [] trees turns outcome) {k : Nat}
    (taken : turns[k]? = some turn) :
    ∃ i, Tree.blocksBefore trees i = k ∧ turn.Sees trees turns i := by
  obtain ⟨i, seen, rank, stands, following, before, size, became⟩ := ran.sees_after taken
  rw [List.nil_append] at before
  exact ⟨i, rank, stands, following, by rw [before, size], by rw [before]; exact became⟩

end Pass

namespace Bindings

/-- The section a block opens is named by the container that its action declares. -/
theorem sectionName_of_call {bindings : Bindings} {block : Block} {call : Call}
    (called : bindings.call block = .ok call) :
    ∃ action, bindings.registry.action? block.start.name = some action ∧
      sectionName action.spec.container call.params = .ok call.sectionName := by
  obtain ⟨entry, action, given, known, declared, -, -, opened, -⟩ := made_of_call called
  exact ⟨action, Option.bind_eq_some_iff.mpr ⟨entry, known, declared⟩, opened⟩

/-- Rendering has a history, and in every history, whatever generators do, a generator
sees the siblings before its block as this pass has left them and all else as bound.
A lookup finds the last section of a name that was opened before the block at its
level. Every node that a pass gets through is rendered, and it ends in a report just
when the reply of a generator makes for one. -/
theorem rendering_context_invariant (bindings : Bindings) (file : String) (room : Nat)
    (trees : List (Tree Call)) :
    (∃ turns, Pass bindings.Conducts file bindings.vars room [] trees turns
        (bindings.renderAll file room [] trees).outcome ∧
      (bindings.renderAll file room [] trees).events = Turn.eventsOfPass turns) ∧
    (∀ conduct turns outcome, Pass conduct file bindings.vars room [] trees turns outcome →
      (∀ nodes pass, Inside trees turns nodes pass → ∀ k turn, pass[k]? = some turn →
        ∃ i, Tree.blocksBefore nodes i = k ∧ turn.Sees nodes pass i ∧
          (∀ name found, turn.context.section? name = some found ↔
            ∃ j < i, Became nodes pass j (.block found.call found.content) ∧
              found.call.sectionName = some name ∧ ∀ m, j < m → m < i → ¬Opens nodes name m) ∧
          ∀ name, turn.context.section? name = none ↔ ∀ j < i, ¬Opens nodes name j) ∧
      (∀ siblings, outcome = .ok siblings → siblings.length = trees.length ∧
        ∀ j sibling, siblings[j]? = some sibling → Became trees turns j sibling) ∧
      (∀ halt, outcome = .error (.halt halt) ↔
        ∃ nodes pass, Inside trees turns nodes pass ∧ ∃ turn ∈ pass, turn.Reports file halt)) ∧
    (∀ block call, bindings.call block = .ok call →
      ∃ action, bindings.registry.action? block.start.name = some action ∧
        sectionName action.spec.container call.params = .ok call.sectionName ∧
        (action.spec.container = .none → call.sectionName = none)) := by
  refine ⟨pass_of_renderAll bindings file room [] trees, ?_, ?_⟩
  · intro conduct turns outcome ran
    refine ⟨?_, ?_, fun halt => ran.halts_iff⟩
    · intro nodes pass inside k turn taken
      obtain ⟨below, ended, ran, -⟩ := inside.ran ran
      obtain ⟨i, rank, sees⟩ := ran.sees taken
      exact ⟨i, rank, sees, fun name found => sees.section?_eq_some_iff,
        fun name => sees.section?_eq_none_iff⟩
    · rintro siblings rfl
      obtain ⟨seen, rfl, size, became⟩ := ran.became
      exact ⟨size, became⟩
  · intro block call called
    obtain ⟨action, declared, opened⟩ := sectionName_of_call called
    refine ⟨action, declared, opened, ?_⟩
    intro without
    rw [without] at opened
    exact (Except.ok.inj opened).symm

/-- A section of some text. -/
def sectionCall : Call :=
  ⟨Pipeline.sectionBlock, "BuiltIn()", [(.text "name", .text "s")], some "s"⟩

/-- Two sections of the same name with a text between them. -/
def twoSections : List (Tree Call) :=
  [.block sectionCall [.text ['b']], .text ['-'], .block sectionCall [.text ['c']]]

/-- What the second block is handed after the first one. -/
def secondContext : Context :=
  ⟨"nofile", sectionCall, [.text ['c']], [.block sectionCall ['b'], .text ['-']], [], []⟩

def twoTurns : List Turn :=
  [.mk ⟨"nofile", sectionCall, [.text ['b']], [], [.text ['-'], .block sectionCall [.text ['c']]], []⟩
    [[]] (some (.content ['b'])),
    .mk secondContext [[]] (some (.content ['c']))]

/-- The second block finds the section that the first one has rendered. -/
theorem rendering_context_invariant_twoSections :
    Pass (fun _ script => script = .transparent) "nofile" [] 1 [] twoSections twoTurns
      (.ok [.block sectionCall ['b'], .text ['-'], .block sectionCall ['c']]) ∧
    twoTurns[1]? = some (.mk secondContext [[]] (some (.content ['c']))) ∧
    secondContext.section? "s" = some ⟨sectionCall, ['b']⟩ := by
  have ran : Pass (fun _ script => script = .transparent) "nofile" [] 1 [] twoSections twoTurns
      (.ok [.block sectionCall ['b'], .text ['-'], .block sectionCall ['c']]) := by
    refine .answered rfl (.rendered (.text .nil) .reply) rfl (.text ?_)
    exact .answered rfl (.rendered (.text .nil) .reply) rfl .nil
  obtain ⟨-, histories, -⟩ := rendering_context_invariant Pipeline.builtinBindings "nofile" 1 twoSections
  obtain ⟨calls, -, -⟩ := histories _ _ _ ran
  obtain ⟨i, rank, sees, lookup, -⟩ := calls twoSections twoTurns .self 1 _ rfl
  have place : i = 2 := sees.length.symm
  subst place
  refine ⟨ran, rfl, (lookup "s" ⟨sectionCall, ['b']⟩).mpr ⟨0, by decide, ?_, rfl, ?_⟩⟩
  · exact .block rfl rfl rfl rfl
  · intro m after before opens
    obtain rfl : m = 1 := by omega
    obtain ⟨call, body, stands, -⟩ := opens
    cases stands

end Bindings
end Regen
