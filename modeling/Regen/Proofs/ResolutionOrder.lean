import Mathlib.Data.List.Forall2
import Regen.Proofs.Regeneration

/-! The order of resolution. The blocks of a document are bound from the inside out
and in document order, each by four checks, and the first check that fails is
what is reported. Nothing of this depends on what generators do: they are first
called when every block of the document is bound. -/
namespace Regen

namespace Tree
variable {α : Type}

mutual

/-- The marks of a tree, those inside a block before its own. -/
def postorder : Tree α → List α
  | .text _ => []
  | .block mark body => postorderAll body ++ [mark]

/-- The marks of several trees, those inside a block before its own. -/
def postorderAll : List (Tree α) → List α
  | [] => []
  | tree :: more => postorder tree ++ postorderAll more

end

section Postorder
variable {content : Text} {mark : α} {body more : List (Tree α)}

@[simp] theorem postorderAll_nil : postorderAll ([] : List (Tree α)) = [] := rfl

@[simp] theorem postorderAll_text : postorderAll (.text content :: more) = postorderAll more := rfl

@[simp] theorem postorderAll_block : postorderAll (.block mark body :: more) =
    postorderAll body ++ mark :: postorderAll more := by
  simp [postorderAll, postorder]

end Postorder
end Tree

/-- How a computation failed, if it did. -/
def failure? {ε α : Type} : Except ε α → Option ε
  | .error stop => some stop
  | .ok _ => none

namespace Bindings
open Regen.Tree (postorderAll)

/-- The value that a literal stands for, if it is not a variable without one. -/
def valueOf? (bindings : Bindings) : Header.Literal → Option Value
  | .variable name => bindings.vars.at? name
  | literal => some literal.asWritten

/-- Parameters and what is given with them: each key with the value of its literal. -/
def Gives (bindings : Bindings) : List Header.Parameter → Entries → Prop :=
  List.Forall₂ fun param entry => entry.1 = param.key ∧ bindings.valueOf? param.value = some entry.2

/-- The parameter that names the section of a block passes all checks, but its value
cannot be written. -/
def Unnameable (bindings : Bindings) (block : Block) : Prop :=
  ∃ entry action given params value,
    bindings.registry.entry? block.start.name.namespaceName = some entry ∧
    entry.action? block.start.name.action = some action ∧
    bindings.Gives block.start.params given ∧ action.schema.check given = .ok params ∧
    action.spec.container.isNone = false ∧ action.spec.container.unkeyable? = none ∧
    params.get? action.spec.container = some value ∧ value.isWritable = false

/-- Why a block is refused. Each reason presupposes that the checks before it were
passed. The two before the last are faults of a catalogue, not of the block. -/
inductive Refuses (bindings : Bindings) (block : Block) : BindFault → Prop
  | namespaceUnknown : bindings.registry.entry? block.start.name.namespaceName = none →
    Refuses bindings block (.cause (.unknownNamespace (.text block.start.name.namespaceName)))
  | actionUnknown {entry : Registered} :
    bindings.registry.entry? block.start.name.namespaceName = some entry →
    entry.action? block.start.name.action = none →
    Refuses bindings block (.cause (.unknownAction (.text block.start.name.action)
      (.text block.start.name.namespaceName)
      (.object entry.generator.kind entry.generator.shown) (.text block.start.name.action)))
  | variableUndefined {entry : Registered} {action : Action} {before after : List Header.Parameter}
      {param : Header.Parameter} {name : String} :
    bindings.registry.entry? block.start.name.namespaceName = some entry →
    entry.action? block.start.name.action = some action →
    block.start.params = before ++ param :: after →
    (∀ earlier ∈ before, (bindings.valueOf? earlier.value).isSome) →
    param.value = .variable name → bindings.vars.at? name = none →
    Refuses bindings block (.cause (.undefinedVariable (.text name)))
  | paramsInvalid {entry : Registered} {action : Action} {given : Entries} {fault : ParamFault} :
    bindings.registry.entry? block.start.name.namespaceName = some entry →
    entry.action? block.start.name.action = some action →
    bindings.Gives block.start.params given → action.schema.check given = .error (.fault fault) →
    Refuses bindings block (.cause (.invalidParams (.text fault.message)
      (.text block.start.name.namespaceName)
      (.object entry.generator.kind entry.generator.shown) (.text block.start.name.action)))
  | paramKeyless {entry : Registered} {action : Action} {given : Entries} {word : String} :
    bindings.registry.entry? block.start.name.namespaceName = some entry →
    entry.action? block.start.name.action = some action →
    bindings.Gives block.start.params given → action.schema.check given = .error (.keyless word) →
    Refuses bindings block (.escape ⟨.missingKey, quote word⟩)
  | containerUnfit {entry : Registered} {action : Action} {given : Entries} {params : Table}
      {kind : String} :
    bindings.registry.entry? block.start.name.namespaceName = some entry →
    entry.action? block.start.name.action = some action →
    bindings.Gives block.start.params given → action.schema.check given = .ok params →
    action.spec.container.unkeyable? = some kind →
    Refuses bindings block (.escape (.noKey kind))
  | nameUnwritable : bindings.Unnameable block → Refuses bindings block (.escape .unwritable)

section Given
variable {bindings : Bindings} {param : Header.Parameter} {params more : List Header.Parameter}
  {literal : Header.Literal} {given : Entries} {value : Value} {name : String}

theorem valueOf?_eq_none_iff :
    bindings.valueOf? literal = none ↔
      ∃ name, literal = .variable name ∧ bindings.vars.at? name = none := by
  cases literal <;> simp [valueOf?]

theorem given_of_value (valued : bindings.valueOf? param.value = some value) :
    bindings.given (param :: more) = (bindings.given more).map ((param.key, value) :: ·) := by
  rw [given]
  split
  · rename_i name named
    rw [named, valueOf?] at valued
    simp only [valued]
  · rename_i other
    have written : bindings.valueOf? param.value = some param.value.asWritten := by
      unfold valueOf?
      split
      · rename_i name named
        exact absurd named (other name)
      · rfl
    rw [written] at valued
    cases valued
    rfl

theorem given_of_undefined (named : param.value = .variable name)
    (undefined : bindings.vars.at? name = none) : bindings.given (param :: more) = .error name := by
  unfold given
  simp only [named, undefined]

/-- Every parameter is given, with the value of its literal. -/
theorem given_eq_ok_iff : bindings.given params = .ok given ↔ bindings.Gives params given := by
  induction params generalizing given with
  | nil =>
    rw [Bindings.given, Gives, List.forall₂_nil_left_iff, Except.ok.injEq]
    exact eq_comm
  | cons param more ih =>
    rw [Gives, List.forall₂_cons_left_iff]
    cases valued : bindings.valueOf? param.value with
    | none =>
      obtain ⟨name, named, undefined⟩ := valueOf?_eq_none_iff.mp valued
      rw [given_of_undefined named undefined]
      constructor
      · nofun
      · rintro ⟨_, _, ⟨-, valued'⟩, -⟩
        cases valued'
    | some value =>
      rw [given_of_value valued, map_eq_ok_iff]
      constructor
      · rintro ⟨rest, later, rfl⟩
        exact ⟨_, rest, ⟨rfl, rfl⟩, ih.mp later, rfl⟩
      · rintro ⟨⟨key, value'⟩, rest, ⟨rfl, same⟩, later, rfl⟩
        cases same
        exact ⟨rest, ih.mpr later, rfl⟩

/-- What is reported undefined is the first variable without a value. -/
theorem given_eq_error_iff : bindings.given params = .error name ↔
    ∃ before param after, params = before ++ param :: after ∧
      (∀ earlier ∈ before, (bindings.valueOf? earlier.value).isSome) ∧
      param.value = .variable name ∧ bindings.vars.at? name = none := by
  induction params with
  | nil => simp [given]
  | cons first more ih =>
    cases valued : bindings.valueOf? first.value with
    | none =>
      obtain ⟨name', named, undefined⟩ := valueOf?_eq_none_iff.mp valued
      rw [given_of_undefined named undefined, Except.error.injEq]
      constructor
      · rintro rfl
        exact ⟨[], first, more, rfl, by simp, named, undefined⟩
      · rintro ⟨before, param, after, same, fine, named', -⟩
        cases before with
        | nil =>
          cases same
          rw [named] at named'
          cases named'
          rfl
        | cons earlier before =>
          cases same
          have impossible := fine first List.mem_cons_self
          rw [valued] at impossible
          cases impossible
    | some value =>
      rw [given_of_value valued]
      have later : (bindings.given more).map ((first.key, value) :: ·) = .error name ↔
          bindings.given more = .error name := by
        cases bindings.given more <;> simp [Except.map]
      rw [later, ih]
      constructor
      · rintro ⟨before, param, after, rfl, fine, undefined⟩
        exact ⟨first :: before, param, after, rfl, by simpa [valued] using fine, undefined⟩
      · rintro ⟨before, param, after, same, fine, named, undefined⟩
        cases before with
        | nil =>
          cases same
          rw [valueOf?_eq_none_iff.mpr ⟨name, named, undefined⟩] at valued
          cases valued
        | cons earlier before =>
          cases same
          exact ⟨before, param, after, rfl,
            fun earlier mem => fine earlier (List.mem_cons_of_mem first mem), named, undefined⟩

end Given

/-- A section has no name that can be told if the parameter that names it cannot be
looked up, or holds what cannot be written. -/
theorem sectionName_eq_error_iff {container : Value} {params : Table} {found : Escape} :
    sectionName container params = .error found ↔
      (∃ kind, container.unkeyable? = some kind ∧ found = .noKey kind) ∨
      (container.isNone = false ∧ container.unkeyable? = none ∧
        (∃ value, params.get? container = some value ∧ value.isWritable = false) ∧
        found = .unwritable) := by
  unfold sectionName
  split
  · simp [Value.unkeyable?, Value.isNone]
  · rename_i other
    have meant : container.isNone = false := by
      cases container with
      | none => exact absurd rfl other
      | _ => rfl
    split
    · rename_i kind unfit
      rw [unfit]
      constructor
      · intro refused
        exact .inl ⟨kind, rfl, (Except.error.inj refused).symm⟩
      · rintro (⟨_, same, rfl⟩ | ⟨-, never, -⟩)
        · cases same
          rfl
        · cases never
    · rename_i fit
      split
      · rename_i absent
        simp [fit, absent]
      · rename_i value held
        have unwritable : value.write.map some = .error found ↔
            value.isWritable = false ∧ found = .unwritable := by
          rw [← Value.write_eq_error_iff]
          cases value.write <;> simp [Except.map]
        split
        · rename_i none
          have writable : value.isWritable := by
            cases value with
            | none => rfl
            | _ => cases none
          simp [fit, held, writable]
        · simp [fit, held, meant, unwritable]

section Refuses
variable {bindings : Bindings} {block : Block} {fault : BindFault} {file : String} {nodes : List Node}
  {halt : Halt}

/-- An action found is not called if a variable is not defined, the parameters are refused,
or the section has no name that can be told. -/
theorem callAction_eq_error_iff {generator : Generator} {action : Action} :
    bindings.callAction block generator action = .error fault ↔
      (∃ name, bindings.given block.start.params = .error name ∧
        fault = .cause (.undefinedVariable (.text name))) ∨
      ∃ given, bindings.given block.start.params = .ok given ∧
        ((∃ refusal, action.schema.check given = .error (.fault refusal) ∧
          fault = .cause (.invalidParams (.text refusal.message) (.text block.start.name.namespaceName)
            (.object generator.kind generator.shown) (.text block.start.name.action))) ∨
        (∃ word, action.schema.check given = .error (.keyless word) ∧
          fault = .escape ⟨.missingKey, quote word⟩) ∨
        ∃ params found, action.schema.check given = .ok params ∧
          sectionName action.spec.container params = .error found ∧ fault = .escape found) := by
  unfold callAction
  cases gave : bindings.given block.start.params with
  | error name => simp [eq_comm]
  | ok given =>
    cases checked : action.schema.check given with
    | error stop => cases stop <;> simp [checked, eq_comm]
    | ok params =>
      cases told : sectionName action.spec.container params <;> simp [checked, told, eq_comm]

theorem call_of_declared {entry : Registered} {action : Action}
    (known : bindings.registry.entry? block.start.name.namespaceName = some entry)
    (declared : entry.action? block.start.name.action = some action) :
    bindings.call block = bindings.callAction block entry.generator action := by
  simp only [call, known, declared]

/-- A block that makes no call is refused for the first reason there is. -/
theorem call_eq_error_iff : bindings.call block = .error fault ↔ bindings.Refuses block fault := by
  constructor
  · intro refused
    unfold call at refused
    dsimp only at refused
    split at refused
    · rename_i unknown
      cases refused
      exact .namespaceUnknown unknown
    · rename_i entry known
      split at refused
      · rename_i unknown
        cases refused
        exact .actionUnknown known unknown
      · rename_i action declared
        rcases callAction_eq_error_iff.mp refused with ⟨name, undefined, rfl⟩ | ⟨given, gave,
          ⟨refusal, checked, rfl⟩ | ⟨word, checked, rfl⟩ | ⟨params, found, checked, unnamed, rfl⟩⟩
        · obtain ⟨before, param, after, params, fine, named, undefined⟩ := given_eq_error_iff.mp undefined
          exact .variableUndefined known declared params fine named undefined
        · exact .paramsInvalid known declared (given_eq_ok_iff.mp gave) checked
        · exact .paramKeyless known declared (given_eq_ok_iff.mp gave) checked
        · have gives := given_eq_ok_iff.mp gave
          rcases sectionName_eq_error_iff.mp unnamed with
            ⟨kind, unfit, rfl⟩ | ⟨meant, fit, ⟨value, held, unwritable⟩, rfl⟩
          · exact .containerUnfit known declared gives checked unfit
          · exact .nameUnwritable
              ⟨entry, action, given, params, value, known, declared, gives, checked, meant, fit, held, unwritable⟩
  · intro refused
    cases refused with
    | namespaceUnknown unknown => simp [call, unknown]
    | actionUnknown known unknown => simp [call, known, unknown]
    | variableUndefined known declared params fine named undefined =>
      rw [call_of_declared known declared, callAction_eq_error_iff]
      exact .inl ⟨_, given_eq_error_iff.mpr ⟨_, _, _, params, fine, named, undefined⟩, rfl⟩
    | paramsInvalid known declared gives checked =>
      rw [call_of_declared known declared, callAction_eq_error_iff]
      exact .inr ⟨_, given_eq_ok_iff.mpr gives, .inl ⟨_, checked, rfl⟩⟩
    | paramKeyless known declared gives checked =>
      rw [call_of_declared known declared, callAction_eq_error_iff]
      exact .inr ⟨_, given_eq_ok_iff.mpr gives, .inr (.inl ⟨_, checked, rfl⟩)⟩
    | containerUnfit known declared gives checked unfit =>
      rw [call_of_declared known declared, callAction_eq_error_iff]
      exact .inr ⟨_, given_eq_ok_iff.mpr gives, .inr (.inr ⟨_, _, checked,
        sectionName_eq_error_iff.mpr (.inl ⟨_, unfit, rfl⟩), rfl⟩)⟩
    | nameUnwritable unnameable =>
      obtain ⟨entry, action, given, params, value, known, declared, gives, checked, meant, fit, held,
        unwritable⟩ := unnameable
      rw [call_of_declared known declared, callAction_eq_error_iff]
      exact .inr ⟨_, given_eq_ok_iff.mpr gives, .inr (.inr ⟨_, _, checked,
        sectionName_eq_error_iff.mpr (.inr ⟨meant, fit, ⟨value, held, unwritable⟩, rfl⟩), rfl⟩)⟩

/-- What stops resolution at a block, if it is refused. -/
def refusal? (bindings : Bindings) (file : String) (block : Block) : Option Halt :=
  match bindings.call block with
  | .error fault => some (BindFault.toHalt file block fault)
  | .ok _ => none

theorem refusal?_eq_none_iff :
    bindings.refusal? file block = none ↔ ∃ call, bindings.call block = .ok call := by
  unfold refusal?
  cases bindings.call block <;> simp

theorem refusal?_eq_some_iff : bindings.refusal? file block = some halt ↔
    ∃ fault, bindings.Refuses block fault ∧ BindFault.toHalt file block fault = halt := by
  simp only [← call_eq_error_iff]
  unfold refusal?
  cases bindings.call block <;> simp

/-- Resolution fails at the first block in postorder that is refused. -/
theorem failure?_resolveAll (bindings : Bindings) (file : String) (nodes : List Node) :
    failure? (bindings.resolveAll file nodes) = (postorderAll nodes).findSome? (bindings.refusal? file) := by
  induction nodes using Tree.forest_induction with
  | nil => rfl
  | text content more ih =>
    rw [Tree.postorderAll_text, ← ih, resolveAll, resolve]
    cases bindings.resolveAll file more <;> rfl
  | block block body more inside after =>
    rw [Tree.postorderAll_block, List.findSome?_append, List.findSome?_cons, ← inside, ← after,
      resolveAll, resolve, refusal?]
    cases bindings.resolveAll file body with
    | error halt => rfl
    | ok children =>
      cases bindings.call block with
      | error fault => rfl
      | ok call => cases bindings.resolveAll file more <;> rfl

theorem resolves_iff : (∃ trees, bindings.resolveAll file nodes = .ok trees) ↔
    ∀ block ∈ postorderAll nodes, ∃ call, bindings.call block = .ok call := by
  have first := failure?_resolveAll bindings file nodes
  have fine : ∀ block, (∃ call, bindings.call block = .ok call) ↔
      bindings.refusal? file block = none := fun block => refusal?_eq_none_iff.symm
  simp only [fine, ← List.findSome?_eq_none_iff, ← first]
  cases bindings.resolveAll file nodes <;> simp [failure?]

theorem resolveAll_eq_error_iff : bindings.resolveAll file nodes = .error halt ↔
    ∃ before block after fault, postorderAll nodes = before ++ block :: after ∧
      (∀ earlier ∈ before, ∃ call, bindings.call earlier = .ok call) ∧
      bindings.Refuses block fault ∧ halt = BindFault.toHalt file block fault := by
  have first := failure?_resolveAll bindings file nodes
  have failed : bindings.resolveAll file nodes = .error halt ↔
      failure? (bindings.resolveAll file nodes) = some halt := by
    cases bindings.resolveAll file nodes <;> simp [failure?]
  rw [failed, first, List.findSome?_eq_some_iff]
  constructor
  · rintro ⟨before, block, after, order, refused, fine⟩
    obtain ⟨fault, refuses, same⟩ := refusal?_eq_some_iff.mp refused
    exact ⟨before, block, after, fault, order,
      fun earlier mem => refusal?_eq_none_iff.mp (fine earlier mem), refuses, same.symm⟩
  · rintro ⟨before, block, after, fault, order, fine, refuses, rfl⟩
    exact ⟨before, block, after, order, refusal?_eq_some_iff.mpr ⟨fault, refuses, rfl⟩,
      fun earlier mem => refusal?_eq_none_iff.mpr (fine earlier mem)⟩

end Refuses
end Bindings

/-- The section of an action is named by a parameter that can be a key, and every
parameter is declared under the word that it is given with. -/
def Action.WellTyped (action : Action) : Prop :=
  action.spec.container.unkeyable? = none ∧
    ∀ param ∈ action.schema.params, param.key = some param.word

instance (action : Action) : Decidable action.WellTyped :=
  inferInstanceAs (Decidable (action.spec.container.unkeyable? = none ∧
    ∀ param ∈ action.schema.params, param.key = some param.word))

namespace Registry

/-- The actions that can be called are declared as they should be. -/
def WellTyped (registry : Registry) : Prop :=
  ∀ named ∈ registry, ∀ declared ∈ named.2.declared, declared.2.WellTyped

instance (registry : Registry) : Decidable registry.WellTyped :=
  inferInstanceAs (Decidable (∀ named ∈ registry, ∀ declared ∈ named.2.declared, declared.2.WellTyped))

/-- Every generator is registered with the actions that its catalogue declares. -/
def Compiled (registry : Registry) : Prop :=
  ∀ namespaceName entry, registry.entry? namespaceName = some entry →
    compile namespaceName entry.generator = .ok entry

/-- Generators with the same catalogues are registered under the same namespaces. -/
def SameCatalogs (registry registry' : Registry) : Prop :=
  ∀ namespaceName, (registry'.entry? namespaceName).map (·.generator.catalog) =
    (registry.entry? namespaceName).map (·.generator.catalog)

section Catalogs
variable {registry registry' after : Registry} {generator : Generator} {entry entry' : Registered}
  {action : Action} {declared declared' : Value × Action} {entries : List (Value × Value)}
  {actions actions' : List (Value × Action)} {shown shown' namespaceName name : String}
  {given : Value × Value}

theorem WellTyped.declares (typed : registry.WellTyped)
    (known : registry.entry? namespaceName = some entry) (found : entry.action? name = some action) :
    action.WellTyped :=
  typed _ (Assoc.mem_of_get? known) _ (Registered.mem_of_action? found)

theorem compile_eq_ok_iff : compile namespaceName generator = .ok entry ↔
    ∃ entries, generator.catalog = .ok (.table entries) ∧ entry.generator = generator ∧
      actionsOf generator.shown namespaceName entries = .ok entry.declared := by
  unfold compile
  split
  · rename_i failed
    simp [failed]
  · rename_i entries table
    rw [table, bind_eq_ok_iff]
    constructor
    · rintro ⟨actions, declared, done⟩
      cases done
      exact ⟨entries, rfl, rfl, by rwa [Registered.declared_ofActions]⟩
    · rintro ⟨_, same, rfl, declared⟩
      cases same
      exact ⟨entry.declared, declared, congrArg Except.ok entry.ofActions_declared⟩
  · rename_i given other found
    refine iff_of_false nofun ?_
    rintro ⟨entries, table, -, -⟩
    rw [found, Except.ok.injEq] at table
    exact other entries table

/-- The generator and the namespace show in complaints only. -/
theorem actionOf_elsewhere (done : actionOf shown namespaceName given = .ok declared)
    (shown' namespaceName' : String) : actionOf shown' namespaceName' given = .ok declared := by
  unfold actionOf at done ⊢
  split at done
  · cases done
  · split at done
    · exact done
    · cases done
    · cases done

theorem actionsOf_elsewhere (done : actionsOf shown namespaceName entries = .ok actions)
    (shown' namespaceName' : String) : actionsOf shown' namespaceName' entries = .ok actions := by
  induction entries generalizing actions with
  | nil => exact done
  | cons first more ih =>
    obtain ⟨action, declared, done⟩ := bind_eq_ok_iff.mp done
    obtain ⟨rest, later, done⟩ := bind_eq_ok_iff.mp done
    exact bind_eq_ok_iff.mpr ⟨action, actionOf_elsewhere declared shown' namespaceName',
      bind_eq_ok_iff.mpr ⟨rest, ih later, done⟩⟩

/-- What can be called is settled by the catalogues. -/
theorem SameCatalogs.actions_eq (same : registry.SameCatalogs registry') (compiled : registry.Compiled)
    (compiled' : registry'.Compiled) (known : registry.entry? namespaceName = some entry) :
    ∃ entry', registry'.entry? namespaceName = some entry' ∧ entry'.declared = entry.declared := by
  have catalogs := same namespaceName
  rw [known, Option.map_some, Option.map_eq_some_iff] at catalogs
  obtain ⟨entry', known', catalog⟩ := catalogs
  refine ⟨entry', known', ?_⟩
  obtain ⟨entries, table, -, declared⟩ := compile_eq_ok_iff.mp (compiled _ _ known)
  obtain ⟨entries', table', -, declared'⟩ := compile_eq_ok_iff.mp (compiled' _ _ known')
  rw [catalog, table] at table'
  cases table'
  rw [actionsOf_elsewhere declared entry'.generator.shown namespaceName] at declared'
  exact (Except.ok.inj declared').symm

theorem compiled_nil : Compiled [] := nofun

theorem Compiled.register (compiled : registry.Compiled)
    (done : registry.register namespaceName generator = .ok after) : after.Compiled := by
  obtain ⟨entry, made, found⟩ := entry?_register done
  intro other entry' known
  rw [found] at known
  split at known
  · rename_i same
    cases known
    obtain ⟨-, -, self, -⟩ := compile_eq_ok_iff.mp made
    rw [← same, self]
    exact made
  · exact compiled other entry' known

end Catalogs
end Registry

namespace Schema

section Typed
variable {schema : Schema} {given : Entries} {word : String}

/-- A parameter that is known by its word is declared under it. -/
theorem accepted_eq_pure (typed : ∀ param ∈ schema.params, param.key = some param.word) :
    schema.accepted = fun entry => pure (.text entry.1,
      ((schema.param? entry.1).bind fun param => param.spec.type.accept? entry.2).getD entry.2) := by
  funext entry
  unfold accepted
  cases found : schema.param? entry.1 with
  | some param => rfl
  | none =>
    have unknown : schema.knows entry.1 = false := by
      rw [knows, List.any_eq_false]
      intro param mem
      have other := List.find?_eq_none.mp found param mem
      rw [typed param mem] at other
      simpa using other
    rw [unknown]
    rfl

theorem check_ne_keyless (typed : ∀ param ∈ schema.params, param.key = some param.word) :
    schema.check given ≠ .error (.keyless word) := by
  intro refused
  unfold check at refused
  split at refused
  · cases refused
  · split at refused
    · rw [accepted_eq_pure typed, List.mapM_pure] at refused
      cases refused
    · cases refused

end Typed
end Schema

/-- A cause without the generator that it names. -/
def Cause.impersonal : Cause → Cause
  | .unknownAction action namespaceName _ declared =>
    .unknownAction action namespaceName .none declared
  | .invalidParams detail namespaceName _ action => .invalidParams detail namespaceName .none action
  | cause => cause

/-- What stopped the work, without the generator that it names. -/
def Halt.impersonal : Halt → Halt
  | .fault reported => .fault { reported with cause := reported.cause.impersonal }
  | .escape found => .escape found

/-- The kind of a cause is the same without the generator. -/
@[simp] theorem Cause.kind_impersonal (cause : Cause) : cause.impersonal.kind = cause.kind := by
  cases cause <;> rfl

namespace Bindings
open Regen.Tree (postorderAll)

section Faults
variable {bindings bindings' : Bindings} {block : Block} {fault : BindFault} {file : String}
  {nodes : List Node} {halt : Halt}

/-- Unless a catalogue is at fault itself, only the name of a section that cannot be
written makes for a failure without a place. -/
theorem Refuses.cause (typed : bindings.registry.WellTyped) (refuses : bindings.Refuses block fault) :
    (∃ cause, fault = .cause cause) ∨ bindings.Unnameable block ∧ fault = .escape .unwritable := by
  cases refuses with
  | paramKeyless known declared gives checked =>
    exact absurd checked (Schema.check_ne_keyless (typed.declares known declared).2)
  | containerUnfit known declared gives checked unfit =>
    have fit := (typed.declares known declared).1
    rw [unfit] at fit
    cases fit
  | nameUnwritable unnameable => exact .inr ⟨unnameable, rfl⟩
  | _ => exact .inl ⟨_, rfl⟩

/-- Bindings that differ at most in what their generators do. -/
structure DeclaresAlike (bindings bindings' : Bindings) : Prop where
  catalogs : bindings.registry.SameCatalogs bindings'.registry
  compiled : bindings.registry.Compiled
  compiled' : bindings'.registry.Compiled
  vars : bindings'.vars = bindings.vars

namespace DeclaresAlike

theorem symm (alike : bindings.DeclaresAlike bindings') : bindings'.DeclaresAlike bindings :=
  ⟨fun namespaceName => (alike.catalogs namespaceName).symm, alike.compiled', alike.compiled,
    alike.vars.symm⟩

theorem known (alike : bindings.DeclaresAlike bindings') {namespaceName : String} {entry : Registered}
    (known : bindings.registry.entry? namespaceName = some entry) :
    ∃ entry', bindings'.registry.entry? namespaceName = some entry' ∧
      ∀ name, entry'.action? name = entry.action? name := by
  obtain ⟨entry', known', actions⟩ := alike.catalogs.actions_eq alike.compiled alike.compiled' known
  exact ⟨entry', known', fun name => by
    rw [Registered.action?_eq_named?, actions, Registered.action?_eq_named?]⟩

theorem unknown (alike : bindings.DeclaresAlike bindings') {namespaceName : String}
    (unknown : bindings.registry.entry? namespaceName = none) :
    bindings'.registry.entry? namespaceName = none := by
  have catalogs := alike.catalogs namespaceName
  rw [unknown] at catalogs
  exact Option.map_eq_none_iff.mp catalogs

theorem valueOf?_eq (alike : bindings.DeclaresAlike bindings') :
    bindings'.valueOf? = bindings.valueOf? := by
  funext literal
  cases literal <;> simp only [valueOf?, alike.vars]

theorem gives (alike : bindings.DeclaresAlike bindings') {params : List Header.Parameter}
    {given : Entries} (gives : bindings.Gives params given) : bindings'.Gives params given := by
  rw [Gives, alike.valueOf?_eq]
  exact gives

end DeclaresAlike

/-- A block is refused alike by bindings that differ in what generators do. -/
theorem Refuses.alike (alike : bindings.DeclaresAlike bindings')
    (refuses : bindings.Refuses block fault) (file : String) :
    ∃ fault', bindings'.Refuses block fault' ∧
      (BindFault.toHalt file block fault').impersonal =
        (BindFault.toHalt file block fault).impersonal := by
  cases refuses with
  | namespaceUnknown unknown => exact ⟨_, .namespaceUnknown (alike.unknown unknown), rfl⟩
  | actionUnknown known unknown =>
    obtain ⟨entry', known', same⟩ := alike.known known
    exact ⟨_, .actionUnknown known' ((same _).trans unknown), rfl⟩
  | variableUndefined known declared params fine named undefined =>
    obtain ⟨entry', known', same⟩ := alike.known known
    rw [← alike.valueOf?_eq] at fine
    rw [← alike.vars] at undefined
    exact ⟨_, .variableUndefined known' ((same _).trans declared) params fine named undefined, rfl⟩
  | paramsInvalid known declared gives checked =>
    obtain ⟨entry', known', same⟩ := alike.known known
    exact ⟨_, .paramsInvalid known' ((same _).trans declared) (alike.gives gives) checked, rfl⟩
  | paramKeyless known declared gives checked =>
    obtain ⟨entry', known', same⟩ := alike.known known
    exact ⟨_, .paramKeyless known' ((same _).trans declared) (alike.gives gives) checked, rfl⟩
  | containerUnfit known declared gives checked unfit =>
    obtain ⟨entry', known', same⟩ := alike.known known
    exact ⟨_, .containerUnfit known' ((same _).trans declared) (alike.gives gives) checked unfit, rfl⟩
  | nameUnwritable unnameable =>
    obtain ⟨entry, action, given, params, value, known, declared, gives, checked, named⟩ := unnameable
    obtain ⟨entry', known', same⟩ := alike.known known
    exact ⟨_, .nameUnwritable ⟨entry', action, given, params, value, known', (same _).trans declared,
      alike.gives gives, checked, named⟩, rfl⟩

/-- Resolution stops alike under bindings that differ in what generators do. -/
theorem DeclaresAlike.resolveAll (alike : bindings.DeclaresAlike bindings')
    (stopped : bindings.resolveAll file nodes = .error halt) :
    ∃ halt', bindings'.resolveAll file nodes = .error halt' ∧ halt'.impersonal = halt.impersonal := by
  obtain ⟨before, block, after, fault, order, fine, refuses, rfl⟩ := resolveAll_eq_error_iff.mp stopped
  obtain ⟨fault', refuses', same⟩ := refuses.alike alike file
  refine ⟨_, resolveAll_eq_error_iff.mpr ⟨before, block, after, fault', order, ?_, refuses', rfl⟩, same⟩
  intro earlier mem
  cases called : bindings'.call earlier with
  | ok call => exact ⟨call, rfl⟩
  | error other =>
    -- What is refused under the one is refused under the other.
    obtain ⟨_, never, -⟩ := (call_eq_error_iff.mp called).alike alike.symm file
    obtain ⟨call, passed⟩ := fine earlier mem
    rw [call_eq_error_iff.mpr never] at passed
    cases passed

end Faults
end Bindings

namespace Pipeline
open Bindings
open Regen.Tree (postorderAll)

section Transform
variable {pipeline : Pipeline} {file : Option String} {source : Text} {document : Document}

/-- A document that is parsed has been cut into chunks, and no more. -/
theorem events_parse
    (parsed : Document.parse pipeline.limits.nesting pipeline.settings file source = .ok document) :
    document.file = Document.nameIn pipeline.settings file ∧
      ∃ chunks, pipeline.parse (Document.nameIn pipeline.settings file) source =
        ⟨[.scanned chunks document.file], .ok document⟩ := by
  unfold Document.parse at parsed
  split at parsed
  · cases parsed
  · rename_i chunks scanned
    have named : document.file = Document.nameIn pipeline.settings file := by
      unfold Document.ofChunks at parsed
      split at parsed
      · cases parsed
        rfl
      · cases parsed
    refine ⟨named, chunks.length, ?_⟩
    rw [parse, Run.bind_of_ok scanned, Run.bind_of_ok (Run.outcome_record _), named]
    simp [Run.ofExcept, Run.record, parsed]

/-- Nothing happens between the scan of a document and a refusal in it. -/
theorem transform_of_refused {halt : Halt} {chunks : Nat}
    (parsed : pipeline.parse (Document.nameIn pipeline.settings file) source =
      ⟨[.scanned chunks document.file], .ok document⟩)
    (refused : pipeline.bindings.resolveAll document.file document.nodes = .error halt) :
    pipeline.transform file source = ⟨[.scanned chunks document.file], .error halt⟩ := by
  rw [transform, parsed]
  simp [Run.bind, render, Run.ofExcept, refused]

/-- Generators are called once all blocks are bound. -/
theorem events_transform_of_bound {trees : List (Tree Call)} {chunks : Nat}
    (parsed : pipeline.parse (Document.nameIn pipeline.settings file) source =
      ⟨[.scanned chunks document.file], .ok document⟩)
    (bound : pipeline.bindings.resolveAll document.file document.nodes = .ok trees) :
    (pipeline.transform file source).events =
      [.scanned chunks document.file, .resolved trees.length] ++
        (pipeline.bindings.renderAll document.file pipeline.limits.levels [] trees).events := by
  rw [transform, parsed]
  cases rendered : (pipeline.bindings.renderAll document.file pipeline.limits.levels [] trees).outcome <;>
    simp [Run.bind, render, Run.ofExcept, Run.record, Run.mapError, funext (output_eq document.file),
      Run.pure, bound, rendered]

end Transform

/-- Resolution binds a whole forest or reports the first block in postorder that is
refused, for the first of the reasons there are and at its place, unless the reason is
that the name of its section cannot be written. It comes before any generator is called,
so that pipelines with the same catalogues and variables stop alike, whatever their
generators do. -/
theorem resolution_complete_ordered_first (pipeline : Pipeline) :
    (∀ file nodes,
      ((∃ trees, pipeline.bindings.resolveAll file nodes = .ok trees) ↔
        ∀ block ∈ postorderAll nodes, ∃ call, pipeline.bindings.call block = .ok call) ∧
      (∀ trees, pipeline.bindings.resolveAll file nodes = .ok trees →
        Resolved pipeline.bindings nodes trees ∧ Tree.relabelAll Call.block trees = nodes) ∧
      (∀ halt, pipeline.bindings.resolveAll file nodes = .error halt ↔
        ∃ before block after fault, postorderAll nodes = before ++ block :: after ∧
          (∀ earlier ∈ before, ∃ call, pipeline.bindings.call earlier = .ok call) ∧
          pipeline.bindings.Refuses block fault ∧ halt = BindFault.toHalt file block fault) ∧
      (pipeline.bindings.registry.WellTyped → ∀ block fault, pipeline.bindings.Refuses block fault →
        (∃ cause, BindFault.toHalt file block fault =
          .fault ⟨cause, some block.start.loc, some file⟩) ∨
        pipeline.bindings.Unnameable block ∧
          BindFault.toHalt file block fault = .escape .unwritable)) ∧
    (∀ file source document,
      Document.parse pipeline.limits.nesting pipeline.settings file source = .ok document →
      ∃ chunks,
        (∀ halt, pipeline.bindings.resolveAll document.file document.nodes = .error halt →
          pipeline.transform file source = ⟨[.scanned chunks document.file], .error halt⟩ ∧
          ∀ other : Pipeline, other.settings = pipeline.settings →
            other.limits.nesting = pipeline.limits.nesting → pipeline.bindings.DeclaresAlike other.bindings →
            ∃ halt', other.transform file source = ⟨[.scanned chunks document.file], .error halt'⟩ ∧
              halt'.impersonal = halt.impersonal) ∧
        ∀ trees, pipeline.bindings.resolveAll document.file document.nodes = .ok trees →
          (pipeline.transform file source).events =
            [.scanned chunks document.file, .resolved trees.length] ++
              (pipeline.bindings.renderAll document.file pipeline.limits.levels [] trees).events) := by
  constructor
  · intro file nodes
    refine ⟨resolves_iff, ?_, fun halt => resolveAll_eq_error_iff, ?_⟩
    · intro trees bound
      have resolved := resolved_of_resolveAll bound
      exact ⟨resolved, resolved.relabelAll⟩
    · intro typed block fault refuses
      rcases refuses.cause typed with ⟨cause, rfl⟩ | ⟨unnameable, rfl⟩
      · exact .inl ⟨cause, rfl⟩
      · exact .inr ⟨unnameable, rfl⟩
  · intro file source document parsed
    obtain ⟨chunks, ran⟩ := (events_parse parsed).2
    refine ⟨chunks, ?_, fun trees bound => events_transform_of_bound ran bound⟩
    intro halt refused
    refine ⟨transform_of_refused ran refused, ?_⟩
    intro other settings nesting alike
    obtain ⟨halt', refused', same⟩ := alike.resolveAll refused
    have ran' : other.parse (Document.nameIn other.settings file) source =
        ⟨[.scanned chunks document.file], .ok document⟩ := by
      rw [parse, settings, nesting]
      exact ran
    exact ⟨halt', transform_of_refused ran' refused', same⟩

/-- The built-in catalogue with a generator that leaves at once. -/
def leavingGenerator : Generator :=
  ⟨"Leaving", .ok (Value.ofEntries Builtin.catalog), fun _ _ _ => .reply (.escape ⟨.exit, "3"⟩)⟩

def leavingBindings : Bindings :=
  ⟨(Registry.register [] "rdmx" leavingGenerator).toOption.getD [], []⟩

/-- A block of an unknown namespace around one of an unknown action. -/
def tangledText : Text :=
  "<!-- rdmx other:x -->\n<!-- rdmx :nope -->\n".toList ++
    "<!-- rdmx /:nope -->\n<!-- rdmx /other:x -->\n".toList

def tangledBlock : Block :=
  ⟨⟨⟨"rdmx", "nope"⟩, [], "<!-- rdmx :nope -->\n".toList, ⟨2, 11⟩⟩, "<!-- rdmx /:nope -->\n".toList⟩

def tangledNodes : List Node :=
  [.block ⟨⟨⟨"other", "x"⟩, [], "<!-- rdmx other:x -->\n".toList, ⟨1, 11⟩⟩,
    "<!-- rdmx /other:x -->\n".toList⟩ [.block tangledBlock []]]

theorem registered_leavingBindings :
    Registry.register [] "rdmx" leavingGenerator = .ok leavingBindings.registry :=
  ok_getD_of_toBool (by decide +kernel) []

theorem declaresAlike_leavingBindings : builtinBindings.DeclaresAlike leavingBindings := by
  refine ⟨fun namespaceName => ?_, Registry.compiled_nil.register registered_builtinBindings,
    Registry.compiled_nil.register registered_leavingBindings, rfl⟩
  obtain ⟨entry, made, found⟩ := Registry.entry?_register registered_builtinBindings
  obtain ⟨entry', made', found'⟩ := Registry.entry?_register registered_leavingBindings
  have self := generator_of_compile made
  have self' := generator_of_compile made'
  rw [found, found']
  by_cases same : "rdmx" = namespaceName
  · rw [if_pos same, if_pos same, Option.map_some, Option.map_some, self, self']
    rfl
  · rw [if_neg same, if_neg same]

theorem refuses_tangledBlock : builtinBindings.Refuses tangledBlock
    (.cause (.unknownAction (.text "nope") (.text "rdmx") (.object "BuiltIn" "BuiltIn()") (.text "nope"))) := by
  have known : (builtinBindings.registry.entry? "rdmx").map (fun entry =>
      (entry.generator.kind, entry.generator.shown, (entry.action? "nope").isNone)) =
      some ("BuiltIn", "BuiltIn()", true) := by decide +kernel
  obtain ⟨entry, known, same⟩ := Option.map_eq_some_iff.mp known
  obtain ⟨kind, shown, unknown⟩ : entry.generator.kind = "BuiltIn" ∧
      entry.generator.shown = "BuiltIn()" ∧ entry.action? "nope" = none := by simpa using same
  have refuses : builtinBindings.Refuses tangledBlock _ := .actionUnknown known unknown
  rw [kind, shown] at refuses
  exact refuses

/-- The inner block is reported, and a generator that would leave is not called. -/
theorem resolution_complete_ordered_first_tangled :
    builtinBindings.registry.WellTyped ∧ ∃ halt halt',
      (builtinPipeline.transform none tangledText).outcome = .error halt ∧
      halt = .fault ⟨.unknownAction (.text "nope") (.text "rdmx") (.object "BuiltIn" "BuiltIn()")
        (.text "nope"), some ⟨2, 11⟩, some "nofile"⟩ ∧
      ((⟨.standard, ⟨2, 0⟩, leavingBindings, none⟩ : Pipeline).transform none tangledText).outcome =
        .error halt' ∧
      halt'.impersonal = halt.impersonal := by
  have parsed : Document.parse 2 .standard none tangledText = .ok ⟨"nofile", tangledNodes⟩ :=
    ok_of_toOption (by decide +kernel)
  obtain ⟨orders, runs⟩ := resolution_complete_ordered_first builtinPipeline
  obtain ⟨-, -, stops, located⟩ := orders "nofile" tangledNodes
  have typed : builtinBindings.registry.WellTyped := by decide +kernel
  rcases located typed _ _ refuses_tangledBlock with ⟨cause, reported⟩ | ⟨-, impossible⟩
  case inr => cases impossible
  cases reported
  have refused := (stops _).mpr ⟨[], tangledBlock, _, _, rfl, by simp, refuses_tangledBlock, rfl⟩
  obtain ⟨chunks, halts, -⟩ := runs none tangledText _ parsed
  obtain ⟨ran, others⟩ := halts _ refused
  obtain ⟨halt', ran', same⟩ := others ⟨.standard, ⟨2, 0⟩, leavingBindings, none⟩ rfl rfl
    declaresAlike_leavingBindings
  refine ⟨typed, _, halt', ?_, rfl, ?_, same⟩
  · rw [ran]
    rfl
  · rw [ran']

/-- A generator with one action, which opens a section under whatever it is given. -/
def naming : Generator :=
  ⟨"Naming", .ok (Value.ofEntries [Builtin.action "x" [("n", Builtin.optional .any "")] "" (.text "n")]),
    fun _ _ _ => .reply (.content "t".toList)⟩

/-- Bindings with a variable that is an integer of more digits than are written. -/
def unnameableBindings : Bindings :=
  ⟨(Registry.register [] "g" naming).toOption.getD [], [(.text "package_name", .int (.ofNat (Nat.pow 16 3600)))]⟩

def unnameablePipeline : Pipeline := ⟨.standard, ⟨1, 1⟩, unnameableBindings, none⟩

def unnameableText : Text := "<!-- rdmx g:x n:$package_name --><!-- rdmx /g:x -->".toList

/-- The one block passes all checks, but writing the name of its section fails, and this
failure has no place and no file. -/
theorem section_name_unlocated : unnameableBindings.registry.WellTyped ∧
    (∃ document, Document.parse 1 .standard none unnameableText = .ok document ∧
      unnameableBindings.resolveAll document.file document.nodes = .error (.escape .unwritable)) ∧
    (unnameablePipeline.transform none unnameableText).outcome = .error (.escape .unwritable) ∧
    ¬∀ file nodes halt, unnameableBindings.resolveAll file nodes = .error halt →
      ∃ cause, ∃ block ∈ postorderAll nodes, halt = .fault ⟨cause, some block.start.loc, some file⟩ := by
  obtain ⟨document, parsed⟩ := exists_ok_of_toBool
    (show (Document.parse 1 .standard none unnameableText).toBool = true by decide +kernel)
  have refused : escape? ((Document.parse 1 .standard none unnameableText).bind fun document =>
      unnameableBindings.resolveAll document.file document.nodes) = some .unwritable := by decide +kernel
  rw [parsed] at refused
  have stopped := eq_error_of_escape? refused
  refine ⟨by decide +kernel, ⟨document, parsed, stopped⟩,
    eq_error_of_escape? (by decide +kernel), fun located => ?_⟩
  obtain ⟨cause, block, -, never⟩ := located _ _ _ stopped
  cases never

end Pipeline
end Regen
