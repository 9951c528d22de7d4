import Regen.Action
import Regen.Generator

/-! The registry: generators by namespace, each with its actions and the schemas
of their parameters. A catalogue is checked as a whole when its generator is
registered, so that a generator at fault leaves the registry as it was. -/
namespace Regen

/-- An action that can be called. -/
@[ext] structure Action where
  spec : ActionSpec
  schema : Schema
deriving Repr

/-- What stands under a text in a dictionary. -/
def named? {α : Type} (entries : List (Value × α)) (name : String) : Option α :=
  entries.findSome? fun entry =>
    match entry.1 with
    | .text text => if text = name then some entry.2 else none
    | _ => none

section Named
variable {α β : Type} {entries : List (Value × α)} {name : String} {a : α}

theorem named?_eq_none_iff : named? entries name = none ↔ Value.text name ∉ entries.map Prod.fst := by
  rw [named?, List.findSome?_eq_none_iff, List.mem_map]
  constructor
  · rintro none ⟨entry, member, named⟩
    have found := none entry member
    rw [named] at found
    simp at found
  · intro other entry member
    split
    · rename_i text named
      refine if_neg fun same => other ⟨entry, member, ?_⟩
      rw [named, same]
    · rfl

theorem mem_of_named? (found : named? entries name = some a) : (.text name, a) ∈ entries := by
  obtain ⟨entry, member, same⟩ := List.exists_of_findSome?_eq_some found
  split at same
  · rename_i text named
    split at same
    · rename_i equal
      cases same
      rw [← equal, ← named]
      exact member
    · cases same
  · cases same

/-- Under the same names, there is something in both dictionaries or in neither. -/
theorem isSome_named? {others : List (Value × β)} (same : others.map Prod.fst = entries.map Prod.fst)
    (found : named? entries name = some a) : (named? others name).isSome := by
  rw [Option.isSome_iff_ne_none, ne_eq, named?_eq_none_iff, same, ← named?_eq_none_iff, found]
  nofun

/-- What stands under a name in each of two dictionaries with the same names stands at
one place. -/
theorem named?_zipWith {γ : Type} (join : α → β → γ) {others : List (Value × β)}
    (same : others.map Prod.fst = entries.map Prod.fst) :
    named? (List.zipWith (fun entry other => (entry.1, join entry.2 other.2)) entries others) name =
      (named? entries name).bind fun a => (named? others name).map (join a) := by
  induction entries generalizing others with
  | nil =>
    obtain rfl := List.map_eq_nil_iff.mp same
    rfl
  | cons entry entries ih =>
    obtain ⟨other, others, rfl, alike, later⟩ := List.map_eq_cons_iff.mp same
    have further := ih later
    unfold named? at further ⊢
    rw [List.zipWith_cons_cons, List.findSome?_cons, List.findSome?_cons, List.findSome?_cons, alike]
    cases entry.1 with
    | text text => by_cases named : text = name <;> simp [named, further]
    | _ => simpa using further

end Named

/-- A generator with the actions of its catalogue and the schemas of their
parameters, which are kept under the same names. -/
structure Registered where
  generator : Generator
  actions : List (Value × ActionSpec)
  schemas : List (Value × Schema)
  names_eq : schemas.map Prod.fst = actions.map Prod.fst

namespace Registered

/-- A generator with actions and their schemas, each entered under its name. -/
def ofActions (generator : Generator) (declared : List (Value × Action)) : Registered where
  generator := generator
  actions := declared.map fun action => (action.1, action.2.spec)
  schemas := declared.map fun action => (action.1, action.2.schema)
  names_eq := by simp

/-- The action of a name; its schema is there if its declaration is. -/
def action? (entry : Registered) (name : String) : Option Action :=
  match found : named? entry.actions name with
  | none => none
  | some spec => some ⟨spec, (named? entry.schemas name).get (isSome_named? entry.names_eq found)⟩

/-- The actions under their names, each with its schema. -/
def declared (entry : Registered) : List (Value × Action) :=
  List.zipWith (fun action schema => (action.1, ⟨action.2, schema.2⟩)) entry.actions entry.schemas

variable {entry : Registered} {name : String} {action : Action}

theorem declared_ofActions (generator : Generator) (declared : List (Value × Action)) :
    (ofActions generator declared).declared = declared := by
  simp [Registered.declared, ofActions, List.zipWith_map_left, List.zipWith_map_right]

/-- The two dictionaries hold no more than the actions with their schemas. -/
theorem ofActions_declared (entry : Registered) : ofActions entry.generator entry.declared = entry := by
  have long : entry.schemas.length = entry.actions.length := by
    simpa using congrArg List.length entry.names_eq
  have actions : entry.declared.map (fun action => (action.1, action.2.spec)) = entry.actions := by
    refine List.ext_getElem (by simp [Registered.declared, long]) fun i _ _ => ?_
    simp [Registered.declared]
  have schemas : entry.declared.map (fun action => (action.1, action.2.schema)) = entry.schemas := by
    refine List.ext_getElem (by simp [Registered.declared, long]) fun i _ here => ?_
    have alike := List.getElem_of_eq entry.names_eq (i := i) (by simpa using here)
    simp only [List.getElem_map] at alike
    simp [Registered.declared, ← alike]
  obtain ⟨generator, _, _, _⟩ := entry
  simp only [ofActions, Registered.mk.injEq]
  exact ⟨trivial, actions, schemas⟩

theorem names_declared (entry : Registered) :
    entry.declared.map Prod.fst = entry.actions.map Prod.fst := by
  rw [← congrArg Registered.actions entry.ofActions_declared]
  simp [ofActions]

theorem action?_eq_some_iff : entry.action? name = some action ↔
    named? entry.actions name = some action.spec ∧
      named? entry.schemas name = some action.schema := by
  unfold action?
  split
  · rename_i none
    simp [none]
  · rename_i spec found
    obtain ⟨schema, compiled⟩ := Option.isSome_iff_exists.mp (isSome_named? entry.names_eq found)
    simp [found, compiled, Action.ext_iff]

theorem action?_eq_named? : entry.action? name = named? entry.declared name := by
  ext action
  rw [action?_eq_some_iff, declared, named?_zipWith Action.mk entry.names_eq, Option.bind_eq_some_iff]
  simp [Action.ext_iff]

theorem mem_of_action? (found : entry.action? name = some action) :
    (.text name, action) ∈ entry.declared :=
  mem_of_named? (action?_eq_named? ▸ found)

end Registered

/-- Generators in the order in which their namespaces were first registered. -/
abbrev Registry := Assoc String Registered

/-- Why a generator is not registered. -/
inductive RegistryFault where
  | notGenerator (namespaceName : String) (given : Value)
  | notCatalog (generator : String) (given : Value)
  | escape (escape : Escape)
  | schema (name : Value) (generator namespaceName : String) (fault : SpecFault)
deriving Repr

/-- What stopped the registration, for the caller. -/
def RegistryFault.toEscape : RegistryFault → Escape
  | .notGenerator namespaceName given =>
    .about .badType [given] (s!"invalid generator for namespace {quote namespaceName}, " ++
      s!"expected actions() and generate(), got: {given.shown}")
  | .notCatalog generator given =>
    .about .badValue [given] (s!"invalid return value from {generator}.actions(), " ++
      s!"expected a mapping, got: {given.shown}")
  | .escape found => found
  | .schema name generator namespaceName fault =>
    .about .badValue [name] (s!"invalid action parameters for action {name.shown} of " ++
      s!"{generator} (mapped as {quote namespaceName}), {fault.toEscape.message}")

namespace Registry

/-- The action that an entry of a catalogue declares. -/
def actionOf (generator namespaceName : String) (entry : Value × Value) :
    Except RegistryFault (Value × Action) :=
  match ActionSpec.ofValue entry.1 entry.2 with
  | .error fault => .error (.escape fault.toEscape)
  | .ok spec =>
    match Schema.ofValue entry.1 spec.params with
    | .ok schema => .ok (entry.1, ⟨spec, schema⟩)
    | .error (.spec fault) => .error (.schema entry.1 generator namespaceName fault)
    | .error (.escape found) => .error (.escape found)

/-- The actions of a catalogue, or the first fault in it. -/
def actionsOf (generator namespaceName : String) :
    List (Value × Value) → Except RegistryFault (List (Value × Action))
  | [] => .ok []
  | entry :: more => do
    let action ← actionOf generator namespaceName entry
    let actions ← actionsOf generator namespaceName more
    return action :: actions

/-- A generator with the actions of its catalogue. -/
def compile (namespaceName : String) (generator : Generator) : Except RegistryFault Registered :=
  match generator.catalog with
  | .error found => .error (.escape found)
  | .ok (.table entries) => do
    return .ofActions generator (← actionsOf generator.shown namespaceName entries)
  | .ok given => .error (.notCatalog generator.shown given)

/-- The registry with a generator under a namespace, in place of any other. -/
def register (registry : Registry) (namespaceName : String) (generator : Generator) :
    Except RegistryFault Registry :=
  match compile namespaceName generator with
  | .ok entry => .ok (registry.set namespaceName entry)
  | .error fault => .error fault

/-- The entry of a namespace. -/
def entry? (registry : Registry) (namespaceName : String) : Option Registered :=
  registry.get? namespaceName

/-- The action of a name in a namespace. -/
def action? (registry : Registry) (name : Header.ActionName) : Option Action :=
  (registry.entry? name.namespaceName).bind fun entry => entry.action? name.action

/-- The namespaces in order. -/
def namespaces (registry : Registry) : List String :=
  registry.map Prod.fst

/-- A new registration answers for its namespace and no other. -/
theorem entry?_register {registry after : Registry} {namespaceName : String}
    {generator : Generator} (done : registry.register namespaceName generator = .ok after) :
    ∃ entry, compile namespaceName generator = .ok entry ∧
      ∀ other, after.entry? other =
        if namespaceName = other then some entry else registry.entry? other := by
  unfold register at done
  split at done
  · rename_i entry compiled
    cases done
    exact ⟨entry, compiled, fun other => Assoc.get?_set registry namespaceName other entry⟩
  · cases done

end Registry
end Regen
