import Mathlib.Data.List.Forall2
import Mathlib.Data.List.Induction
import Regen.Proofs.ResolutionOrder

/-! Runs of registrations. A registration is accepted or not by what is supplied alone,
whatever was registered before. The registry after any run of them answers with the last
that was accepted for a namespace, and every action it answers with comes from the
catalogue of its generator with the schema of its own parameters. -/
namespace Regen

namespace Registry

/-- An entry of a catalogue declares an action, with the schema of the parameters of its
own declaration. -/
structure Declares (given : Value × Value) (declared : Value × Action) : Prop where
  named : declared.1 = given.1
  spec : ActionSpec.ofValue given.1 given.2 = .ok declared.2.spec
  schema : Schema.ofValue given.1 declared.2.spec.params = .ok declared.2.schema

/-- What is supplied is a generator whose catalogue is a table, and each entry of it
declares an action. -/
def Accepts (supplied : Supplied) (entry : Registered) : Prop :=
  supplied = .generator entry.generator ∧ ∃ entries, entry.generator.catalog = .ok (.table entries) ∧
    List.Forall₂ Declares entries entry.declared

/-- The registry after an attempt to register something under a namespace. -/
def attempt (registry : Registry) (request : String × Supplied) : Registry :=
  match (Pipeline.register registry request.1 request.2).outcome with
  | .ok next => next
  | .error _ => registry

/-- The registry after attempts one after the other, none before them. -/
def afterAll (requests : List (String × Supplied)) : Registry :=
  requests.foldl attempt []

/-- The last request for a namespace that could be accepted, as it is registered. -/
def LastAccepted (requests : List (String × Supplied)) (namespaceName : String)
    (entry : Registered) : Prop :=
  ∃ before supplied after, requests = before ++ (namespaceName, supplied) :: after ∧
    Accepts supplied entry ∧
    ∀ later ∈ after, later.1 = namespaceName → ∀ other, ¬ Accepts later.2 other

section Acceptance
variable {registry next : Registry} {supplied : Supplied} {entry : Registered} {action : Action}
  {entries : List (Value × Value)} {actions : List (Value × Action)} {shown namespaceName : String}
  {given : Value × Value} {declared : Value × Action}

theorem actionOf_eq_ok_iff : actionOf shown namespaceName given = .ok declared ↔
    Declares given declared := by
  obtain ⟨name, action⟩ := declared
  unfold actionOf
  constructor
  · intro made
    split at made
    · cases made
    · rename_i spec read
      split at made
      · rename_i schema compiled
        cases made
        exact ⟨rfl, read, compiled⟩
      · cases made
      · cases made
  · rintro ⟨rfl, read, compiled⟩
    rw [read]
    dsimp only
    rw [compiled]

theorem actionsOf_eq_ok_iff : actionsOf shown namespaceName entries = .ok actions ↔
    List.Forall₂ Declares entries actions := by
  induction entries generalizing actions with
  | nil =>
    rw [List.forall₂_nil_left_iff]
    exact ⟨fun made => (Except.ok.inj made).symm, fun none => none ▸ rfl⟩
  | cons given more ih =>
    rw [List.forall₂_cons_left_iff, actionsOf, bind_eq_ok_iff]
    constructor
    · rintro ⟨declared, first, made⟩
      obtain ⟨others, later, done⟩ := bind_eq_ok_iff.mp made
      cases done
      exact ⟨declared, others, actionOf_eq_ok_iff.mp first, ih.mp later, rfl⟩
    · rintro ⟨declared, others, first, later, rfl⟩
      exact ⟨declared, actionOf_eq_ok_iff.mpr first,
        bind_eq_ok_iff.mpr ⟨others, ih.mpr later, rfl⟩⟩

theorem compile_eq_ok_iff_accepts {generator : Generator} :
    compile namespaceName generator = .ok entry ↔ Accepts (.generator generator) entry := by
  rw [compile_eq_ok_iff]
  constructor
  · rintro ⟨entries, table, rfl, made⟩
    exact ⟨rfl, entries, table, actionsOf_eq_ok_iff.mp made⟩
  · rintro ⟨same, entries, table, each⟩
    cases same
    exact ⟨entries, table, rfl, actionsOf_eq_ok_iff.mpr each⟩

/-- The registry has no say in whether a registration is accepted. -/
theorem register_eq_ok_iff : (Pipeline.register registry namespaceName supplied).outcome = .ok next ↔
    ∃ entry, Accepts supplied entry ∧ next = registry.set namespaceName entry := by
  rw [Pipeline.register_eq_ok_iff]
  constructor
  · rintro ⟨generator, rfl, done⟩
    unfold register at done
    split at done
    · rename_i entry compiled
      cases done
      exact ⟨entry, compile_eq_ok_iff_accepts.mp compiled, rfl⟩
    · cases done
  · rintro ⟨entry, accepts, rfl⟩
    obtain rfl := accepts.1
    refine ⟨entry.generator, rfl, ?_⟩
    rw [register, compile_eq_ok_iff_accepts.mpr accepts]

theorem Accepts.unique {other : Registered} (accepts : Accepts supplied entry)
    (again : Accepts supplied other) : entry = other := by
  obtain rfl := accepts.1
  have compiled : compile "" entry.generator = .ok entry := compile_eq_ok_iff_accepts.mpr accepts
  rw [compile_eq_ok_iff_accepts.mpr again] at compiled
  exact (Except.ok.inj compiled).symm

/-- A request is accepted and sets the entry of its namespace, or it leaves the registry
as it was. -/
theorem attempt_cases (registry : Registry) (request : String × Supplied) :
    (∃ entry, Accepts request.2 entry ∧ registry.attempt request = registry.set request.1 entry) ∨
      (∀ entry, ¬ Accepts request.2 entry) ∧ registry.attempt request = registry := by
  unfold attempt
  split
  · rename_i next done
    exact .inl (register_eq_ok_iff.mp done)
  · rename_i found failed
    refine .inr ⟨fun entry accepts => ?_, rfl⟩
    rw [register_eq_ok_iff.mpr ⟨entry, accepts, rfl⟩] at failed
    cases failed

end Acceptance

section Runs
variable {requests : List (String × Supplied)} {request : String × Supplied} {supplied : Supplied}
  {entry : Registered} {namespaceName : String}

theorem afterAll_append : afterAll (requests ++ [request]) = attempt (afterAll requests) request := by
  rw [afterAll, List.foldl_append]
  rfl

/-- One more request is the last that is accepted, or changes nothing about that. -/
theorem lastAccepted_append : LastAccepted (requests ++ [request]) namespaceName entry ↔
    request.1 = namespaceName ∧ Accepts request.2 entry ∨
    (request.1 = namespaceName → ∀ other, ¬ Accepts request.2 other) ∧
      LastAccepted requests namespaceName entry := by
  constructor
  · rintro ⟨before, supplied, after, split, accepts, none⟩
    rcases List.eq_nil_or_concat after with rfl | ⟨others, last, rfl⟩
    · obtain ⟨-, same⟩ := List.append_inj' split rfl
      cases same
      exact .inl ⟨rfl, accepts⟩
    · have split : requests ++ [request] =
          (before ++ (namespaceName, supplied) :: others) ++ [last] := by simpa using split
      obtain ⟨rfl, same⟩ := List.append_inj' split rfl
      cases same
      refine .inr ⟨none _ (by simp), before, supplied, others, rfl, accepts, ?_⟩
      exact fun later member => none later (by simp [member])
  · rintro (⟨rfl, accepts⟩ | ⟨refused, before, supplied, after, rfl, accepts, none⟩)
    · exact ⟨requests, request.2, [], rfl, accepts, nofun⟩
    · refine ⟨before, supplied, after ++ [request], by simp, accepts, fun later member => ?_⟩
      rcases List.mem_append.mp member with member | member
      · exact none later member
      · rw [List.mem_singleton.mp member]
        exact refused

theorem entry?_afterAll_iff :
    entry? (afterAll requests) namespaceName = some entry ↔
      LastAccepted requests namespaceName entry := by
  induction requests using List.reverseRecOn with
  | nil =>
    refine iff_of_false nofun ?_
    rintro ⟨before, supplied, after, split, -⟩
    simp at split
  | append_singleton requests request ih =>
    rw [afterAll_append, lastAccepted_append, ← ih]
    obtain ⟨made, accepts, set⟩ | ⟨refused, same⟩ := attempt_cases (afterAll requests) request
    · have only : Accepts request.2 entry ↔ made = entry :=
        ⟨accepts.unique, fun equal => equal ▸ accepts⟩
      have some : ¬ ∀ other, ¬ Accepts request.2 other := fun none => none made accepts
      rw [set, entry?, Assoc.get?_set]
      by_cases same : request.1 = namespaceName <;> simp [same, only, some, entry?]
    · rw [same]
      simp [refused]

theorem LastAccepted.accepts (last : LastAccepted requests namespaceName entry) :
    ∃ supplied, Accepts supplied entry := by
  obtain ⟨-, supplied, -, -, accepts, -⟩ := last
  exact ⟨supplied, accepts⟩

/-- The actions of an entry and their schemas stand under the names of its catalogue, and
each is declared there. -/
theorem Accepts.catalogued (accepts : Accepts supplied entry) :
    ∃ entries, entry.generator.catalog = .ok (.table entries) ∧
      entry.actions.map Prod.fst = entries.map Prod.fst ∧
      entry.schemas.map Prod.fst = entries.map Prod.fst ∧
      ∀ declared ∈ entry.declared, ∃ given ∈ entries, Declares given declared := by
  obtain ⟨-, entries, table, each⟩ := accepts
  refine ⟨entries, table, ?_⟩
  rw [entry.names_eq, ← and_assoc, and_self, ← entry.names_declared]
  clear table
  generalize entry.declared = actions at each
  induction each with
  | nil => exact ⟨rfl, nofun⟩
  | @cons given declared _ _ first _ ih =>
    refine ⟨?_, List.forall_mem_cons.mpr ⟨⟨given, List.mem_cons_self, first⟩, fun other member => ?_⟩⟩
    · rw [List.map_cons, List.map_cons, ih.1, first.named]
    · obtain ⟨given, there, declares⟩ := ih.2 other member
      exact ⟨given, List.mem_cons_of_mem _ there, declares⟩

theorem entry_catalogued (known : entry? (afterAll requests) namespaceName = some entry) :
    ∃ entries, entry.generator.catalog = .ok (.table entries) ∧
      entry.actions.map Prod.fst = entries.map Prod.fst ∧
      entry.schemas.map Prod.fst = entries.map Prod.fst ∧
      ∀ declared ∈ entry.declared, ∃ given ∈ entries, Declares given declared := by
  obtain ⟨supplied, accepts⟩ := (entry?_afterAll_iff.mp known).accepts
  exact accepts.catalogued

theorem schema_of_action? {name : Header.ActionName} {action : Action}
    (found : (afterAll requests).action? name = some action) :
    Schema.ofValue (.text name.action) action.spec.params = .ok action.schema := by
  rw [action?, Option.bind_eq_some_iff] at found
  obtain ⟨entry, known, found⟩ := found
  obtain ⟨entries, -, -, -, each⟩ := entry_catalogued known
  obtain ⟨given, -, declares⟩ := each _ (Registered.mem_of_action? found)
  have compiled := declares.schema
  rwa [← declares.named] at compiled

end Runs

end Registry
end Regen
