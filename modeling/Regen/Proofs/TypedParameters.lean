import Mathlib.Data.List.Nodup
import Regen.Proofs.CheckedParameters
import Regen.Proofs.MergedVariables
import Regen.Proofs.RegistryRuns

/-! Typed parameters. Whatever is given for a declared parameter, written in the directive or
taken from a variable, reaches the handler as a value of its type. Defaults are handed on as
they are declared, so that handlers receive values of the declared types throughout where the
defaults have theirs. -/
namespace Regen

/-- A value has a type. An integer is no number here, nor is a truth value either of them. -/
inductive ParamType.Has : ParamType → Value → Prop
  | string {s : String} : Has .string (.text s)
  | integer {n : Int} : Has .integer (.int n)
  | float {x : Binary64} : Has .float (.float x)
  | boolean {b : Bool} : Has .boolean (.bool b)
  | any {value : Value} : Has .any value

theorem ParamType.Takes.has {type : ParamType} {value taken : Value}
    (takes : type.Takes value taken) : type.Has taken := by
  cases takes <;> constructor

theorem mapM_eq_ok_iff {ε α β : Type} {f : α → Except ε β} {items : List α} {results : List β} :
    items.mapM f = .ok results ↔
      List.Forall₂ (fun item result => f item = .ok result) items results := by
  induction items generalizing results with
  | nil =>
    rw [List.forall₂_nil_left_iff]
    exact ⟨fun made => (Except.ok.inj made).symm, fun none => none ▸ rfl⟩
  | cons item more ih =>
    rw [List.mapM_cons, List.forall₂_cons_left_iff, bind_eq_ok_iff]
    constructor
    · rintro ⟨result, first, made⟩
      obtain ⟨others, later, done⟩ := bind_eq_ok_iff.mp made
      cases done
      exact ⟨result, others, first, ih.mp later, rfl⟩
    · rintro ⟨result, others, first, later, rfl⟩
      exact ⟨result, first, bind_eq_ok_iff.mpr ⟨others, ih.mpr later, rfl⟩⟩

theorem exists_of_mem_mapM {ε α β : Type} {f : α → Except ε β} {items : List α} {results : List β}
    {result : β} (made : items.mapM f = .ok results) (member : result ∈ results) :
    ∃ item ∈ items, f item = .ok result := by
  have each := mapM_eq_ok_iff.mp made
  clear made
  induction each with
  | nil => cases member
  | @cons item _ _ _ first _ ih =>
    rcases List.mem_cons.mp member with rfl | later
    · exact ⟨item, List.mem_cons_self, first⟩
    · obtain ⟨found, there, made⟩ := ih later
      exact ⟨found, List.mem_cons_of_mem _ there, made⟩

theorem Param.keyValue_eq_text_iff {param : Param} {key : String} :
    param.keyValue = .text key ↔ param.key = some key := by
  cases named : param.key <;> simp [keyValue, named]

namespace Schema

/-- Keys are declared once, and what is declared under a key is given under it. -/
structure Regular (schema : Schema) : Prop where
  distinct : (schema.params.map Param.keyValue).Nodup
  worded : ∀ param ∈ schema.params, ∀ key, param.key = some key → param.word = key

/-- A parameter that is not given has its default. -/
structure FilledIn (param : Param) (keys : List String) (value : Value) : Prop where
  default : value = param.spec.default
  given : value.isNone = false
  omitted : ∀ key, param.key = some key → key ∉ keys ∧ param.spec.isRequired = false

section Compiled
variable {action value : Value} {entries : Table} {specs : List (Value × ParamSpec)}
  {params : List Param} {schema : Schema}

theorem map_fst_specsOf (read : specsOf entries = .ok specs) :
    specs.map Prod.fst = entries.map Prod.fst := by
  induction entries generalizing specs with
  | nil =>
    cases read
    rfl
  | cons entry more ih =>
    obtain ⟨spec, -, read⟩ := bind_eq_ok_iff.mp read
    obtain ⟨others, later, done⟩ := bind_eq_ok_iff.mp read
    cases done
    rw [List.map_cons, List.map_cons, ih later]

/-- A parameter keeps the key that it is declared under. -/
theorem keyed_of_ofKey {key : Value} {place : Nat} {spec : ParamSpec} {param : Param}
    (made : (do return Param.ofKey place spec (← keyOf key) : Except Escape Param) = .ok param) :
    (∀ word, param.key = some word → param.word = word) ∧ param.keyValue = key := by
  cases key
  case none =>
    cases made
    exact ⟨nofun, rfl⟩
  case text s =>
    cases made
    exact ⟨fun word same => Option.some.inj same, rfl⟩
  all_goals cases made

theorem keyed_of_paramsOf (made : paramsOf specs = .ok params) :
    List.Forall₂ (fun entry param => (∀ word, param.key = some word → param.word = word) ∧
      param.keyValue = entry.1) (specs.filter fun entry => !isWildcard entry.1) params := by
  rw [← List.zipIdx_map_fst 0 (specs.filter fun entry => !isWildcard entry.1)]
  exact List.forall₂_map_left_iff.mpr
    ((mapM_eq_ok_iff.mp made).imp fun _ _ placed => keyed_of_ofKey placed)

theorem sameKey_keyValue (param : Param) : param.keyValue.sameKey param.keyValue = true := by
  obtain ⟨key, word, spec⟩ := param
  cases key with
  | none => simp [Param.keyValue, Value.sameKey]
  | some key => simp [Param.keyValue]

theorem regular_of_paramsOf (made : paramsOf specs = .ok params) (opened : Bool)
    (mapping : (specs.map Prod.fst).Pairwise fun key later => key.sameKey later = false) :
    Regular ⟨params, opened⟩ := by
  obtain ⟨worded, keyed⟩ := (List.forall₂_and_left _ _).mp (keyed_of_paramsOf made).flip
  refine ⟨?_, worded⟩
  have same : List.Forall₂ Eq (params.map Param.keyValue)
      ((specs.filter fun entry => !isWildcard entry.1).map Prod.fst) :=
    List.forall₂_map_left_iff.mpr (List.forall₂_map_right_iff.mpr keyed)
  have separate : (params.map Param.keyValue).Pairwise fun key later => key.sameKey later = false := by
    rw [List.forall₂_eq_eq_eq] at same
    rw [same]
    exact mapping.sublist (List.filter_sublist.map Prod.fst)
  refine List.pairwise_map.mpr ((List.pairwise_map.mp separate).imp fun different equal => ?_)
  rw [equal, sameKey_keyValue] at different
  cases different

/-- Declarations in a mapping make a regular schema. -/
theorem regular_of_ofValue (mapping : ∀ entries, value = .table entries → Table.IsMapping entries)
    (compiled : Schema.ofValue action value = .ok schema) : schema.Regular := by
  have whole {specs : List (Value × ParamSpec)} (made : ofSpecs action specs = .ok schema)
      (mapping : (specs.map Prod.fst).Pairwise fun key later => key.sameKey later = false) :
      schema.Regular := by
    unfold ofSpecs at made
    split at made
    · cases made
    split at made
    · cases made
    split at made
    · cases made
    · rename_i params listed
      cases made
      exact regular_of_paramsOf listed _ mapping
  unfold Schema.ofValue at compiled
  split at compiled
  · rename_i entries
    split at compiled
    · cases compiled
    · rename_i specs read
      refine whole compiled ?_
      rw [map_fst_specsOf read]
      exact List.pairwise_map.mpr (mapping entries rfl)
  · split at compiled
    · cases compiled
    · exact whole compiled .nil

end Compiled

section Checked
variable {schema : Schema} {given : Entries} {params : Table} {param : Param} {value : Value}

theorem Regular.eq_of_keyValue (regular : schema.Regular) {other : Param}
    (declared : param ∈ schema.params) (also : other ∈ schema.params)
    (same : param.keyValue = other.keyValue) : param = other :=
  List.inj_on_of_nodup_map regular.distinct declared also same

/-- Checked parameters are the given ones as they are accepted, and defaults. -/
theorem check_eq_ok (passed : schema.check given = .ok params) :
    (given.map Prod.fst).Nodup ∧ schema.problems given = [] ∧
      ∃ taken, params = taken ++ schema.defaults given ∧
        ∀ received ∈ taken, ∃ entry ∈ given, schema.accepted entry = .ok received := by
  unfold check at passed
  split at passed
  · cases passed
  · rename_i fresh
    split at passed
    · rename_i fine
      obtain ⟨taken, accepted, done⟩ := bind_eq_ok_iff.mp passed
      cases done
      exact ⟨(Entries.firstRepeated?_eq_none_iff.mp fresh).1, fine, taken, rfl,
        fun _ => exists_of_mem_mapM accepted⟩
    · cases passed

theorem declaredProblem?_of_problems (fine : schema.problems given = []) (declared : param ∈ schema.params) :
    declaredProblem? given param = none :=
  List.filterMap_eq_nil_iff.mp (List.append_eq_nil_iff.mp fine).1 param declared

/-- A value that passes is of the type of its parameter. -/
theorem has_of_accepted (regular : schema.Regular) (declared : param ∈ schema.params)
    (fine : declaredProblem? given param = none) {key : String} {written : Value}
    (there : given.get? key = some written)
    (accepted : schema.accepted (key, written) = .ok (param.keyValue, value)) :
    param.spec.type.Has value := by
  unfold Schema.accepted at accepted
  split at accepted
  · rename_i found known
    have member := List.mem_of_find?_eq_some known
    have named : found.key = some key := by simpa using List.find?_some known
    obtain ⟨same, taken⟩ := Prod.ext_iff.mp (Except.ok.inj accepted)
    obtain rfl : found = param := regular.eq_of_keyValue member declared
      ((Param.keyValue_eq_text_iff.mpr named).trans same)
    rw [declaredProblem?, regular.worded _ member _ named, there] at fine
    dsimp only at fine taken
    cases passes : found.spec.type.accept? written with
    | none => simp [passes] at fine
    | some value' =>
      rw [passes] at taken
      cases taken
      exact (ParamType.accept?_eq_some_iff.mp passes).has
  · rename_i unknown
    -- What is handed on under a key that is not declared is under no declared one.
    split at accepted
    · cases accepted
    · obtain ⟨same, -⟩ := Prod.ext_iff.mp (Except.ok.inj accepted)
      have named := Param.keyValue_eq_text_iff.mp same.symm
      exact absurd (decide_eq_true named) (List.find?_eq_none.mp unknown param declared)

/-- A default is handed on where its parameter is not given. -/
theorem filledIn_of_default (regular : schema.Regular) (declared : param ∈ schema.params)
    (fine : declaredProblem? given param = none)
    (held : (param.keyValue, value) ∈ schema.defaults given) :
    FilledIn param (given.map Prod.fst) value := by
  obtain ⟨found, member, made⟩ := List.mem_filterMap.mp held
  split at made
  · cases made
  · rename_i free
    rw [Bool.not_eq_true, Bool.or_eq_false_iff] at free
    obtain ⟨same, default⟩ := Prod.ext_iff.mp (Option.some.inj made)
    obtain rfl : found = param := regular.eq_of_keyValue member declared same
    refine ⟨default.symm, (congrArg Value.isNone default).symm.trans free.2, fun key named => ?_⟩
    have absent : given.get? key = none := by
      have unheld := free.1
      rw [named, Option.any_some, Assoc.has, Option.isSome_eq_false_iff, Option.isNone_iff_eq_none]
        at unheld
      exact unheld
    rw [declaredProblem?, regular.worded _ member _ named, absent] at fine
    refine ⟨Assoc.get?_eq_none_iff.mp absent, ?_⟩
    simpa using fine

theorem check_typed (regular : schema.Regular) (passed : schema.check given = .ok params)
    (declared : param ∈ schema.params) (held : (param.keyValue, value) ∈ params) :
    param.spec.type.Has value ∨ FilledIn param (given.map Prod.fst) value := by
  obtain ⟨distinct, none, taken, rfl, each⟩ := check_eq_ok passed
  have fine := declaredProblem?_of_problems none declared
  rcases List.mem_append.mp held with held | held
  · obtain ⟨⟨key, written⟩, there, accepted⟩ := each _ held
    exact .inl (has_of_accepted regular declared fine
      ((Assoc.get?_eq_some_iff distinct).mpr there) accepted)
  · exact .inr (filledIn_of_default regular declared fine held)

end Checked
end Schema

namespace Bindings

/-- What is given for the parameters of a directive stands under their keys. -/
theorem Gives.map_fst {bindings : Bindings} {params : List Header.Parameter} {given : Entries}
    (gives : bindings.Gives params given) : given.map Prod.fst = params.map (·.key) := by
  induction gives with
  | nil => rfl
  | cons first _ ih => rw [List.map_cons, List.map_cons, first.1, ih]

/-- Whatever generators are registered, a value that reaches a handler under a declared key
is of the declared type, unless it is the default of a parameter that the directive does not
give. Nothing looks at defaults before. Where the default has the type, or there is none, so
has every value. -/
theorem call_hands_typed {requests : List (String × Supplied)} {vars : Table} {block : Block}
    {call : Call} {action : Action}
    (found : (Registry.afterAll requests).action? block.start.name = some action)
    (mapping : ∀ entries, action.spec.params = .table entries → Table.IsMapping entries)
    (bound : (⟨Registry.afterAll requests, vars⟩ : Bindings).call block = .ok call) :
    ∀ param ∈ action.schema.params, ∀ value, (param.keyValue, value) ∈ call.params →
      (param.spec.type.Has value ∨
        Schema.FilledIn param (block.start.params.map (·.key)) value) ∧
      (param.spec.default.isNone = true ∨ param.spec.type.Has param.spec.default →
        param.spec.type.Has value) := by
  intro param declared value held
  have regular := Schema.regular_of_ofValue mapping (Registry.schema_of_action? found)
  have typed : param.spec.type.Has value ∨
      Schema.FilledIn param (block.start.params.map (·.key)) value := by
    obtain ⟨entry, action', given, known, named, gave, checked, -⟩ := made_of_call bound
    have same : (Registry.afterAll requests).action? block.start.name = some action' := by
      rw [Registry.action?, known, Option.bind_some, named]
    cases found.symm.trans same
    rw [← (given_eq_ok_iff.mp gave).map_fst]
    exact Schema.check_typed regular checked declared held
  refine ⟨typed, fun sound => typed.elim id fun filled => ?_⟩
  rcases sound with none | has
  · rw [← filled.default, filled.given] at none
    cases none
  · rw [filled.default]
    exact has

/-- The parameters of an action that takes a number of things and has a default for it. -/
def countingParams (default : Value) : Value :=
  .ofEntries [("n", .ofEntries [("type", .text "integer"), ("default", default)])]

def countingParam (default : Value) : Param :=
  ⟨some "n", "n", ⟨.integer, .bool false, default, .text ""⟩⟩

def countingAction (default : Value) : Action :=
  ⟨⟨.text "x", countingParams default, .text "", .none⟩, ⟨[countingParam default], false⟩⟩

def countingGenerator (default : Value) : Generator :=
  ⟨"Table", .ok (.ofEntries [("x", .action (.text "x") (countingParams default) (.text "") .none)]),
    fun _ _ _ => .reply (.content [])⟩

def countingRequests (default : Value) : List (String × Supplied) :=
  [("g", .generator (countingGenerator default))]

/-- A directive that gives no number. -/
def countingBlock : Block :=
  ⟨⟨⟨"g", "x"⟩, [], "<!-- rdmx g:x -->".toList, ⟨1, 11⟩⟩, "<!-- rdmx /g:x -->".toList⟩

def countingEntry (default : Value) : Registered :=
  .ofActions (countingGenerator default) [(.text "x", countingAction default)]

section Counting
variable {default : Value}

theorem accepts_countingGenerator :
    Registry.Accepts (.generator (countingGenerator default)) (countingEntry default) := by
  have compiled : Schema.ofValue (.text "x") (countingParams default) =
      .ok (countingAction default).schema := by rfl
  exact ⟨rfl, _, rfl, .cons ⟨rfl, rfl, compiled⟩ .nil⟩

theorem register_countingGenerator :
    (Pipeline.register [] "g" (.generator (countingGenerator default))).outcome =
      .ok [("g", countingEntry default)] :=
  Registry.register_eq_ok_iff.mpr ⟨_, accepts_countingGenerator, rfl⟩

theorem afterAll_countingRequests :
    Registry.afterAll (countingRequests default) = [("g", countingEntry default)] := by
  rw [Registry.afterAll, countingRequests, List.foldl_cons, List.foldl_nil, Registry.attempt,
    register_countingGenerator]

theorem action?_countingRequests :
    (Registry.afterAll (countingRequests default)).action? countingBlock.start.name =
      some (countingAction default) := by
  rw [afterAll_countingRequests]
  rfl

theorem isMapping_countingParams {entries : Table}
    (table : (countingAction default).spec.params = .table entries) : entries.IsMapping := by
  cases table
  exact List.pairwise_singleton ..

theorem call_countingBlock (given : default.isNone = false) :
    (⟨Registry.afterAll (countingRequests default), []⟩ : Bindings).call countingBlock =
      .ok ⟨countingBlock, "Table()", [(.text "n", default)], none⟩ := by
  rw [afterAll_countingRequests]
  cases default
  case none => cases given
  all_goals rfl

end Counting

/-- A default of the type is handed over as one. -/
theorem call_hands_typed_three :
    (Registry.afterAll (countingRequests (.int 3))).action? countingBlock.start.name =
      some (countingAction (.int 3)) ∧
    (⟨Registry.afterAll (countingRequests (.int 3)), []⟩ : Bindings).call countingBlock =
      .ok ⟨countingBlock, "Table()", [(.text "n", .int 3)], none⟩ ∧
    (countingParam (.int 3)).spec.type.Has (.int 3) := by
  have bound : (⟨Registry.afterAll (countingRequests (.int 3)), []⟩ : Bindings).call countingBlock =
      .ok ⟨countingBlock, "Table()", [(.text "n", .int 3)], none⟩ := call_countingBlock rfl
  refine ⟨action?_countingRequests, bound, ?_⟩
  exact (call_hands_typed action?_countingRequests (fun _ => isMapping_countingParams) bound
    (countingParam (.int 3)) List.mem_cons_self (.int 3) List.mem_cons_self).2 (.inr .integer)

/-- A generator is registered whose default is no integer as declared, and the first directive
that gives none hands it over. -/
theorem call_hands_misfit :
    (Pipeline.register [] "g" (.generator (countingGenerator (.text "three")))).outcome =
      .ok (Registry.afterAll (countingRequests (.text "three"))) ∧
    (Registry.afterAll (countingRequests (.text "three"))).action? countingBlock.start.name =
      some (countingAction (.text "three")) ∧
    (⟨Registry.afterAll (countingRequests (.text "three")), []⟩ : Bindings).call countingBlock =
      .ok ⟨countingBlock, "Table()", [(.text "n", .text "three")], none⟩ ∧
    (countingAction (.text "three")).schema.params = [countingParam (.text "three")] ∧
    (countingParam (.text "three")).keyValue = .text "n" ∧
    ¬ (countingParam (.text "three")).spec.type.Has (.text "three") := by
  refine ⟨?_, action?_countingRequests, call_countingBlock rfl, rfl, rfl, nofun⟩
  rw [afterAll_countingRequests]
  exact register_countingGenerator

end Bindings
end Regen
