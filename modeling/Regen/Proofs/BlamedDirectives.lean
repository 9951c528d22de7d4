import Regen.Proofs.ReportedFailures

/-! Who is blamed when rendering fails. A fault is about the block whose own
generator replied with something that is no content. The blocks around it do not
get to reply, so none of them puts the fault in other words, and nothing is asked
of any generator afterwards. -/
namespace Regen

/-- A fault that the reply of a generator makes for is about the block it was called for. -/
inductive Blames (file : String) (call : Call) : Reply → Fault → Prop
  | failure {reason : Value} : Blames file call (.failure reason)
    ⟨.failure call.generatorValue (.text call.name.action) (.table call.params) reason,
      some call.loc, some file⟩
  | foreign {answer : Value} : Blames file call (.foreign answer)
    ⟨.noReply call.generatorValue (.text call.name.action) (.table call.params) answer,
      some call.loc, some file⟩
  | undefined {name : Value} : Blames file call (.undefined name)
    ⟨.undefinedVariable name, some call.loc, some file⟩
  | noSection {name : Value} : Blames file call (.noSection name)
    ⟨.failure call.generatorValue (.text call.name.action) (.table call.params)
      (.tuple [.text "section_not_found", name]), some call.loc, some file⟩

theorem report_eq_fault_iff {reported fault : Fault} :
    Halt.report reported = .fault fault ↔ reported = fault ∧ fault.isWritable = true := by
  unfold Halt.report
  split
  · rename_i writable
    rw [Halt.fault.injEq]
    exact ⟨fun same => ⟨same, same ▸ writable⟩, fun both => both.1⟩
  · rename_i unwritable
    exact iff_of_false nofun fun both => unwritable (both.1 ▸ both.2)

/-- A reply makes for the fault it is to blame for, if that can be written. -/
theorem settle_eq_fault_iff {file : String} {call : Call} {reply : Reply} {fault : Fault} :
    reply.settle file call = .error (.fault fault) ↔
      Blames file call reply fault ∧ fault.isWritable = true := by
  constructor
  · intro settled
    cases reply with
    | content text => cases settled
    | escape escape => cases settled
    | failure reason =>
      obtain ⟨rfl, writable⟩ := report_eq_fault_iff.mp (Except.error.inj settled)
      exact ⟨.failure, writable⟩
    | foreign answer =>
      obtain ⟨rfl, writable⟩ := report_eq_fault_iff.mp (Except.error.inj settled)
      exact ⟨.foreign, writable⟩
    | undefined name =>
      obtain ⟨rfl, writable⟩ := report_eq_fault_iff.mp (Except.error.inj settled)
      exact ⟨.undefined, writable⟩
    | noSection name =>
      obtain ⟨rfl, writable⟩ := report_eq_fault_iff.mp (Except.error.inj settled)
      exact ⟨.noSection, writable⟩
  · rintro ⟨blames, writable⟩
    cases blames <;> exact congrArg Except.error (report_eq_fault_iff.mpr ⟨rfl, writable⟩)

/-- What passes between rendering and a generator: it is called, and it replies. -/
inductive Exchange where
  | call (context : Context)
  | reply (context : Context) (reply : Reply)

namespace Exchange

/-- The block that is called. -/
def called? : Exchange → Option Call
  | .call context => some context.call
  | .reply .. => none

/-- The blocks that are called, in order. -/
def calls (exchanges : List Exchange) : List Call := exchanges.filterMap called?

/-- All replies are content. -/
def Fine (exchanges : List Exchange) : Prop :=
  ∀ context reply, .reply context reply ∈ exchanges → ∃ content, reply = .content content

section Fine
variable {first more : List Exchange} {context : Context} {content : Text}

theorem fine_nil : Fine [] := nofun

theorem Fine.append (fine : Fine first) (later : Fine more) : Fine (first ++ more) := by
  intro context reply mem
  rcases List.mem_append.mp mem with mem | mem
  · exact fine context reply mem
  · exact later context reply mem

theorem Fine.of_append (fine : Fine (first ++ more)) : Fine first :=
  fun context reply mem => fine context reply (List.mem_append_left more mem)

theorem Fine.call (fine : Fine more) (context : Context) : Fine (.call context :: more) := by
  intro other reply mem
  exact fine other reply ((List.mem_cons.mp mem).resolve_left nofun)

theorem fine_content (context : Context) (content : Text) :
    Fine [.reply context (.content content)] := by
  intro other reply mem
  cases List.mem_singleton.mp mem
  exact ⟨content, rfl⟩

@[simp] theorem calls_nil : calls [] = [] := rfl

@[simp] theorem calls_append (first more : List Exchange) :
    calls (first ++ more) = calls first ++ calls more := List.filterMap_append ..

@[simp] theorem calls_call (context : Context) (more : List Exchange) :
    calls (.call context :: more) = context.call :: calls more := rfl

@[simp] theorem calls_reply (context : Context) (reply : Reply) (more : List Exchange) :
    calls (.reply context reply :: more) = calls more := rfl

end Fine
end Exchange

namespace Turn

mutual

/-- The call of a turn, what passes inside it, and its reply if there is one. -/
def exchanges : Turn → List Exchange
  | .mk context passes reply => .call context ::
    (exchangesOfPasses passes ++ (reply.map (Exchange.reply context)).toList)

/-- What passes in a pass, in order. -/
def exchangesOfPass : List Turn → List Exchange
  | [] => []
  | turn :: turns => turn.exchanges ++ exchangesOfPass turns

/-- What passes in several passes, in order. -/
def exchangesOfPasses : List (List Turn) → List Exchange
  | [] => []
  | pass :: passes => exchangesOfPass pass ++ exchangesOfPasses passes

end

section Exchanges
variable {turn : Turn} {turns : List Turn} {pass : List Turn} {passes : List (List Turn)}
  {context : Context} {reply : Option Reply}

@[simp] theorem exchanges_mk : (Turn.mk context passes reply).exchanges = .call context ::
    (exchangesOfPasses passes ++ (reply.map (Exchange.reply context)).toList) := by
  rw [exchanges]

@[simp] theorem exchangesOfPass_nil : exchangesOfPass [] = [] := by rw [exchangesOfPass]

@[simp] theorem exchangesOfPass_cons :
    exchangesOfPass (turn :: turns) = turn.exchanges ++ exchangesOfPass turns := by
  rw [exchangesOfPass]

@[simp] theorem exchangesOfPasses_nil : exchangesOfPasses [] = [] := by rw [exchangesOfPasses]

@[simp] theorem exchangesOfPasses_cons :
    exchangesOfPasses (pass :: passes) = exchangesOfPass pass ++ exchangesOfPasses passes := by
  rw [exchangesOfPasses]

@[simp] theorem exchangesOfPasses_append (passes more : List (List Turn)) :
    exchangesOfPasses (passes ++ more) = exchangesOfPasses passes ++ exchangesOfPasses more := by
  induction passes with
  | nil => simp
  | cons pass passes ih => simp [ih]

end Exchanges

/-- A pass ends at a turn of its own, or at one in the last pass inside its last turn,
which does not reply then. -/
inductive StopsAt : List Turn → Turn → Prop
  | here (before : List Turn) (turn : Turn) : StopsAt (before ++ [turn]) turn
  | inside (before : List Turn) (context : Context) (passes : List (List Turn)) {pass : List Turn}
    {turn : Turn} : StopsAt pass turn → StopsAt (before ++ [.mk context (passes ++ [pass]) none]) turn

/-- A pass ends with the reply of a turn. Until then all replies were content. -/
structure EndsWith (turns : List Turn) (turn : Turn) (reply : Reply) : Prop where
  stops : StopsAt turns turn
  replied : turn.reply = some reply
  last : ∃ earlier, exchangesOfPass turns = earlier ++ [.reply turn.context reply] ∧
    Exchange.Fine earlier

section EndsWith
variable {turns pass : List Turn} {first turn : Turn} {reply : Reply} {passes : List (List Turn)}
  {trees : List (Tree Call)}

theorem StopsAt.cons (first : Turn) (stops : StopsAt turns turn) : StopsAt (first :: turns) turn := by
  cases stops with
  | here before => exact .here (first :: before) turn
  | inside before context passes stops => exact .inside (first :: before) context passes stops

/-- Where a pass ends is a turn of a pass inside it. -/
theorem StopsAt.inside_of (stops : StopsAt turns turn) (trees : List (Tree Call)) :
    ∃ nodes pass, Inside trees turns nodes pass ∧ turn ∈ pass := by
  induction stops generalizing trees with
  | here => exact ⟨trees, _, .self, List.mem_concat_self⟩
  | inside _ _ _ _ ih =>
    obtain ⟨nodes, pass, inside, mem⟩ := ih _
    exact ⟨nodes, pass, .children List.mem_concat_self List.mem_concat_self inside, mem⟩

theorem EndsWith.cons (ends : EndsWith turns turn reply) (fine : Exchange.Fine first.exchanges) :
    EndsWith (first :: turns) turn reply where
  stops := ends.stops.cons first
  replied := ends.replied
  last := by
    obtain ⟨earlier, split, fine'⟩ := ends.last
    exact ⟨first.exchanges ++ earlier, by simp [split], fine.append fine'⟩

theorem endsWith_self (context : Context) (passes : List (List Turn)) (reply : Reply)
    (fine : Exchange.Fine (exchangesOfPasses passes)) :
    EndsWith [.mk context passes (some reply)] (.mk context passes (some reply)) reply where
  stops := .here [] _
  replied := rfl
  last := ⟨.call context :: exchangesOfPasses passes, by simp [Turn.context], fine.call context⟩

/-- A turn does not reply when a pass inside it fails. -/
theorem EndsWith.around (ends : EndsWith pass turn reply) (context : Context)
    (fine : Exchange.Fine (exchangesOfPasses passes)) :
    EndsWith [.mk context (passes ++ [pass]) none] turn reply where
  stops := .inside [] context passes ends.stops
  replied := ends.replied
  last := by
    obtain ⟨earlier, split, fine'⟩ := ends.last
    exact ⟨.call context :: (exchangesOfPasses passes ++ earlier), by simp [split],
      (fine.append fine').call context⟩

end EndsWith
end Turn

section History
variable {conduct : Context → Script → Prop} {file : String} {vars : Table} {room : Nat}
  {previous siblings : List Sibling} {trees body : List (Tree Call)} {turns : List Turn}
  {script : Script} {passes : List (List Turn)} {halt : Halt} {reply : Reply}

/-- A script that comes to a reply has had its children rendered each time it asked. -/
theorem Follows.fine (inner : ∀ room turns siblings,
      Pass conduct file vars room [] body turns (.ok siblings) →
        Exchange.Fine (Turn.exchangesOfPass turns))
    (follows : Follows conduct file vars room body script passes (.ok reply)) :
    Exchange.Fine (Turn.exchangesOfPasses passes) := by
  induction script generalizing passes with
  | reply answer =>
    cases follows
    exact Turn.exchangesOfPasses_nil ▸ Exchange.fine_nil
  | withChildren next ih =>
    cases follows with
    | rendered ran later =>
      rw [Turn.exchangesOfPasses_cons]
      exact (inner _ _ _ ran).append (ih _ later)

/-- In a pass that gets through all replies are content. -/
theorem Pass.fine (ran : Pass conduct file vars room previous trees turns (.ok siblings)) :
    Exchange.Fine (Turn.exchangesOfPass turns) := by
  induction trees using Tree.forest_induction generalizing room previous turns siblings with
  | nil =>
    cases ran
    exact Turn.exchangesOfPass_nil ▸ Exchange.fine_nil
  | text content more ih =>
    cases ran with
    | text later => exact ih later
  | block call body more inside after =>
    cases ran with
    | answered _ follows settled later =>
      obtain rfl := Reply.content_of_settle settled
      have fine := follows.fine fun _ _ _ ran => inside ran
      rw [Turn.exchangesOfPass_cons, Turn.exchanges_mk]
      exact (((fine.append (Exchange.fine_content _ _)).call _).append (after later))

/-- A script that stops does so with the last pass it asked for. -/
theorem Follows.endsWith (inner : ∀ room turns,
      Pass conduct file vars room [] body turns (.error (.halt halt)) →
        ∃ turn reply, Turn.EndsWith turns turn reply ∧
          reply.settle file turn.context.call = .error halt)
    (follows : Follows conduct file vars room body script passes (.error (.halt halt))) :
    ∃ before pass turn reply, passes = before ++ [pass] ∧
      Exchange.Fine (Turn.exchangesOfPasses before) ∧ Turn.EndsWith pass turn reply ∧
      reply.settle file turn.context.call = .error halt := by
  induction script generalizing passes with
  | reply answer => cases follows
  | withChildren next ih =>
    cases follows with
    | stopped ran =>
      obtain ⟨turn, reply, ends, settled⟩ := inner _ _ ran
      exact ⟨[], _, turn, reply, rfl, Turn.exchangesOfPasses_nil ▸ Exchange.fine_nil, ends, settled⟩
    | @rendered _ _ _ first _ _ _ ran later =>
      obtain ⟨before, pass, turn, reply, rfl, fine, ends, settled⟩ := ih _ later
      refine ⟨first :: before, pass, turn, reply, rfl, ?_, ends, settled⟩
      rw [Turn.exchangesOfPasses_cons]
      exact ran.fine.append fine

/-- A pass that fails ends with the reply that makes for the failure. -/
theorem Pass.endsWith (ran : Pass conduct file vars room previous trees turns (.error (.halt halt))) :
    ∃ turn reply, Turn.EndsWith turns turn reply ∧
      reply.settle file turn.context.call = .error halt := by
  induction trees using Tree.forest_induction generalizing room previous turns with
  | nil => cases ran
  | text content more ih =>
    cases ran with
    | text later => exact ih later
  | block call body more inside after =>
    cases ran with
    | @answered _ _ _ _ _ _ passes _ _ _ _ _ follows settled later =>
      obtain rfl := Reply.content_of_settle settled
      obtain ⟨turn, reply, ends, failed⟩ := after later
      have fine := follows.fine fun _ _ _ ran => ran.fine
      refine ⟨turn, reply, ends.cons ?_, failed⟩
      rw [Turn.exchanges_mk]
      exact (fine.append (Exchange.fine_content _ _)).call _
    | reported _ follows settled =>
      exact ⟨_, _, Turn.endsWith_self _ _ _ (follows.fine fun _ _ _ ran => ran.fine), settled⟩
    | stopped _ follows =>
      obtain ⟨before, pass, turn, reply, rfl, fine, ends, settled⟩ :=
        follows.endsWith fun _ _ ran => inside ran
      exact ⟨turn, reply, ends.around _ fine, settled⟩

end History

namespace Bindings

section Faithful
variable {bindings : Bindings} {file : String} {room : Nat} {previous : List Sibling}
  {body trees : List (Tree Call)} {turns : List Turn} {script : Script}
  {passes : List (List Turn)} {outcome : Except RenderStop (List Sibling)}
  {ended : Except RenderStop Reply}

theorem outcome_run_of_follows (inner : ∀ room turns outcome,
      Pass bindings.Conducts file bindings.vars room [] body turns outcome →
        (bindings.renderAll file room [] body).outcome = outcome)
    (follows : Follows bindings.Conducts file bindings.vars room body script passes ended) :
    (script.run (bindings.childrenText file room body)).outcome = ended := by
  induction script generalizing passes with
  | reply answer =>
    cases follows
    rfl
  | withChildren next ih =>
    rw [Script.run, Run.outcome_bind]
    cases follows with
    | tooDeep => rfl
    | stopped ran =>
      rw [childrenText, Run.outcome_bind, inner _ _ _ ran]
      rfl
    | rendered ran later =>
      rw [childrenText, Run.outcome_bind, inner _ _ _ ran]
      exact ih _ later

/-- The history of what the generators of a registry do ends as rendering does. -/
theorem outcome_renderAll_of_pass
    (ran : Pass bindings.Conducts file bindings.vars room previous trees turns outcome) :
    (bindings.renderAll file room previous trees).outcome = outcome := by
  induction trees using Tree.forest_induction generalizing room previous turns outcome with
  | nil =>
    cases ran
    rfl
  | text content more ih =>
    cases ran with
    | text later =>
      rw [renderAll_text]
      exact ih later
  | block call body more inside after =>
    have run {script : Script} {passes : List (List Turn)} {ended : Except RenderStop Reply}
        (conducted : bindings.Conducts (bindings.contextOf file previous call body more) script)
        (follows : Follows bindings.Conducts file bindings.vars room body script passes ended) :
        ((bindings.script (bindings.contextOf file previous call body more)).run
          (bindings.childrenText file room body)).outcome = ended :=
      outcome_run_of_follows (fun _ _ _ ran => inside ran) (conducted ▸ follows)
    cases ran with
    | answered conducted follows settled later =>
      obtain rfl := Reply.content_of_settle settled
      rw [outcome_renderAll_of_content (run conducted follows)]
      exact after later
    | reported conducted follows settled =>
      rw [outcome_renderAll_block, run conducted follows]
      simp [Except.bind, settled, mapError_error]
    | stopped conducted follows => exact outcome_renderAll_of_error (run conducted follows)

end Faithful
end Bindings
end Regen
