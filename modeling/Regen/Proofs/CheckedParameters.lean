import Mathlib.Data.List.Forall2
import Mathlib.Tactic.NormNum
import Regen.Proofs.ResolutionOrder

/-! Checked parameters. What an action is given passes or fails by its declarations
alone, and either way the outcome is determined by what is declared and given: the
parameters that are handed on stand in the order of the directive and then of the
declarations, and a refusal lists every fault once, in the order of the declarations
and then of the directive. -/
namespace Regen

namespace Binary64

section Range
variable {num unit : Nat} {negative : Bool}

theorem roundHalfEven_eq_top_iff (some : 0 < unit) (below : num < 2 ^ 54 * unit) :
    roundHalfEven num (2 * unit) = 2 ^ 53 ↔ (2 ^ 54 - 1) * unit ≤ num := by
  have split := Nat.div_add_mod num (2 * unit)
  have rest := Nat.mod_lt num (show 0 < 2 * unit by omega)
  have quotient : num / (2 * unit) ≤ 2 ^ 53 - 1 :=
    Nat.le_sub_one_of_lt (Nat.div_lt_of_lt_mul (by omega))
  unfold roundHalfEven
  dsimp only
  generalize num / (2 * unit) = q at *
  generalize num % (2 * unit) = r at *
  rcases Nat.lt_or_eq_of_le quotient with lower | rfl
  · have most : 2 * unit * q ≤ 2 * unit * (2 ^ 53 - 2) := Nat.mul_le_mul_left _ (by omega)
    refine iff_of_false ?_ (by omega)
    split_ifs <;> omega
  · norm_num at split ⊢
    omega

theorem exponentOf_whole (some : num ≠ 0) : exponentOf num 1 = (num.log2 : Int) - 52 := by
  have least := Nat.log2_self_le some
  have one : Nat.log2 1 = 0 := by decide
  have whole : unscale num 1 num.log2 = (num, 2 ^ num.log2) := by simp [unscale]
  simp only [exponentOf, one, Int.natCast_zero, Int.sub_zero, whole, minExponent,
    if_neg (Nat.not_lt.mpr least)]
  omega

/-- A whole number stays finite where its exponent does after rounding. -/
theorem isFinite_ofRatio_whole (some : num ≠ 0) :
    (ofRatio negative num 1).isFinite = true ↔
      num.log2 < 1023 ∨ num.log2 = 1023 ∧ roundHalfEven num (2 * 2 ^ (num.log2 - 53)) ≠ 2 ^ 53 := by
  have scaled (large : 1023 ≤ num.log2) :
      unscale num 1 ((num.log2 : Int) - 52) = (num, 2 * 2 ^ (num.log2 - 53)) := by
    have place : ((num.log2 : Int) - 52).natAbs = num.log2 - 53 + 1 := by omega
    rw [unscale, if_neg (by omega), Nat.one_mul, place, ← Nat.pow_succ']
    rfl
  rw [ofRatio, if_neg some, exponentOf_whole some]
  dsimp only
  rcases Nat.lt_or_ge num.log2 1023 with small | large
  · refine iff_of_true ?_ (.inl small)
    split_ifs <;> simp only [isFinite, maxExponent] at * <;> omega
  · rw [scaled large]
    split_ifs <;> simp only [isFinite, maxExponent, Nat.pow_eq, Bool.false_eq_true, false_iff,
      true_iff] at * <;> omega

/-- An integer is within the range of numbers up to half a place beyond the greatest. -/
theorem isFinite_ofInt_iff (n : Int) :
    (ofInt n).isFinite = true ↔ n.natAbs < (2 ^ 54 - 1) * 2 ^ 970 := by
  obtain ⟨unit, is⟩ : ∃ unit, unit = 2 ^ 970 := exists_eq
  have some : 0 < unit := by simp only [is, Nat.two_pow_pos]
  rw [← is]
  by_cases zero : n.natAbs = 0
  · exact iff_of_true (by rw [ofInt, zero]; rfl) (by omega)
  · have half : n.natAbs.log2 < 53 + 970 ↔ n.natAbs < 2 ^ 53 * unit := by
      rw [Nat.log2_lt zero, is, ← Nat.pow_add]
    have whole : n.natAbs.log2 < 54 + 970 ↔ n.natAbs < 2 ^ 54 * unit := by
      rw [Nat.log2_lt zero, is, ← Nat.pow_add]
    rw [ofInt, isFinite_ofRatio_whole zero]
    rcases Nat.lt_trichotomy n.natAbs.log2 1023 with small | exact | large
    · exact iff_of_true (.inl small) (by omega)
    · rw [exact, show 1023 - 53 = 970 from rfl, ← is, ne_eq,
        roundHalfEven_eq_top_iff some (whole.mp (by omega))]
      omega
    · exact iff_of_false (by omega) (by omega)

end Range
end Binary64

namespace ParamType

/-- A value is of a type, and this is what is made of it: the value itself, unless an
integer within the range of numbers stands for a number. -/
inductive Takes : ParamType → Value → Value → Prop
  | string {s : String} : Takes .string (.text s) (.text s)
  | integer {n : Int} : Takes .integer (.int n) (.int n)
  | float {x : Binary64} : Takes .float (.float x) (.float x)
  | whole {n : Int} : n.natAbs < (2 ^ 54 - 1) * 2 ^ 970 →
    Takes .float (.int n) (.float (.ofInt n))
  | boolean {b : Bool} : Takes .boolean (.bool b) (.bool b)
  | any {value : Value} : Takes .any value value

section Taken
variable {type : ParamType} {value taken : Value}

theorem accept?_eq_some_iff : type.accept? value = some taken ↔ type.Takes value taken := by
  constructor
  · intro accepted
    unfold accept? at accepted
    split at accepted
    case h_4 n =>
      split at accepted
      · rename_i finite
        cases accepted
        exact .whole ((Binary64.isFinite_ofInt_iff n).mp finite)
      · cases accepted
    all_goals cases accepted
    all_goals constructor
  · rintro (_ | _ | _ | within | _ | _)
    case whole => exact if_pos ((Binary64.isFinite_ofInt_iff _).mpr within)
    all_goals rfl

theorem Takes.unique {other : Value} (takes : type.Takes value taken)
    (again : type.Takes value other) : taken = other := by
  rw [← accept?_eq_some_iff] at takes again
  exact Option.some.inj (takes.symm.trans again)

theorem accept?_eq_none_iff : type.accept? value = none ↔ ∀ taken, ¬ type.Takes value taken := by
  rw [Option.eq_none_iff_forall_ne_some]
  exact forall_congr' fun taken => not_congr accept?_eq_some_iff

end Taken
end ParamType

/-- A key is given that was given before, and it is the first such key. -/
def Entries.Repeats (given : Entries) (key : String) : Prop :=
  ∃ before value after, given = before ++ (key, value) :: after ∧
    (before.map Prod.fst).Nodup ∧ key ∈ before.map Prod.fst

section Repetition
variable {seen : List String} {given : Entries} {key : String}

theorem Entries.firstRepeated?_eq_none_iff : given.firstRepeated? seen = none ↔
    (given.map Prod.fst).Nodup ∧ ∀ key ∈ given.map Prod.fst, key ∉ seen := by
  induction given generalizing seen with
  | nil => simp [firstRepeated?]
  | cons entry more ih =>
    rw [firstRepeated?, List.map_cons, List.nodup_cons, List.forall_mem_cons]
    by_cases again : entry.1 ∈ seen
    · simp [again]
    · simp only [List.contains_eq_mem, again, decide_false, Bool.false_eq_true, if_false, ih,
        List.mem_cons, not_or]
      grind

theorem Entries.repeats_of_firstRepeated? (found : given.firstRepeated? seen = some key) :
    ∃ before value after, given = before ++ (key, value) :: after ∧ (before.map Prod.fst).Nodup ∧
      (∀ earlier ∈ before.map Prod.fst, earlier ∉ seen) ∧
      (key ∈ seen ∨ key ∈ before.map Prod.fst) := by
  induction given generalizing seen with
  | nil => cases found
  | cons entry more ih =>
    rw [firstRepeated?] at found
    split at found
    · rename_i again
      cases found
      exact ⟨[], entry.2, more, rfl, .nil, nofun, .inl (List.contains_iff_mem.mp again)⟩
    · rename_i fresh
      obtain ⟨before, value, after, rfl, distinct, unseen, again⟩ := ih found
      -- The search goes on with this key seen, so that it is not among those before the find.
      refine ⟨entry :: before, value, after, rfl, ?_, ?_, ?_⟩
      · exact List.nodup_cons.mpr ⟨fun early => unseen _ early List.mem_cons_self, distinct⟩
      · refine List.forall_mem_cons.mpr ⟨fun early => fresh (List.contains_iff_mem.mpr early), ?_⟩
        exact fun earlier member early => unseen earlier member (List.mem_cons_of_mem _ early)
      · rw [List.map_cons, List.mem_cons, or_left_comm, ← or_assoc, ← List.mem_cons]
        exact again

end Repetition

namespace Param

/-- The parameter declared under a name. -/
def named (declared : String × ParamSpec) : Param := ⟨some declared.1, declared.1, declared.2⟩

end Param

namespace ParamProblem

/-- The key that a problem is about. -/
def key : ParamProblem → String
  | .wrongType key _ => key
  | .missing key => key
  | .unknown key => key

end ParamProblem

namespace Schema

/-- The declarations that a value lists under names. A value that counts as not given
lists none. -/
inductive Lists : Value → Entries → Prop
  | named {entries : Entries} : (entries.map Prod.fst).Nodup → Lists (.ofEntries entries) entries
  | nothing {value : Value} : value.isTruthy = false → Lists value []

/-- An entry of a table declares a parameter under its name. -/
def Declared (entry : String × Value) (param : String × ParamSpec) : Prop :=
  entry.1 = param.1 ∧ ParamSpec.ofValue (.text entry.1) entry.2 = .ok param.2

/-- What is declared under each name in order. The wildcard is no name. -/
def Declares (entries : Entries) (declared : Assoc String ParamSpec) : Prop :=
  List.Forall₂ Declared (entries.filter fun entry => entry.1 ≠ wildcard) declared

/-- The schema of these declarations. -/
def ofDeclared (declared : Assoc String ParamSpec) (opened : Prop) [Decidable opened] : Schema :=
  ⟨declared.map .named, opened⟩

section Compiled
variable {value action : Value} {entries : Entries} {schema : Schema}
  {declared : Assoc String ParamSpec}

theorem Lists.distinct (lists : Lists value entries) : (entries.map Prod.fst).Nodup := by
  cases lists with
  | named distinct => exact distinct
  | nothing => exact .nil

theorem map_fst_of_declared (each : List.Forall₂ Declared entries declared) :
    entries.map Prod.fst = declared.map Prod.fst := by
  induction each with
  | nil => rfl
  | cons first _ ih => rw [List.map_cons, List.map_cons, first.1, ih]

theorem Declares.distinct (declares : Declares entries declared)
    (distinct : (entries.map Prod.fst).Nodup) : (declared.map Prod.fst).Nodup :=
  map_fst_of_declared declares ▸ distinct.sublist (List.filter_sublist.map Prod.fst)

/-- Declarations under names are read one by one. -/
theorem specsOf_ofEntries {specs : List (Value × ParamSpec)}
    (read : specsOf (Table.ofEntries entries) = .ok specs) :
    ∃ all : Assoc String ParamSpec, specs = all.map (fun param => (.text param.1, param.2)) ∧
      List.Forall₂ Declared entries all := by
  induction entries generalizing specs with
  | nil =>
    cases read
    exact ⟨[], rfl, .nil⟩
  | cons entry more ih =>
    obtain ⟨spec, first, read⟩ := bind_eq_ok_iff.mp read
    obtain ⟨others, later, done⟩ := bind_eq_ok_iff.mp read
    cases done
    obtain ⟨all, rfl, each⟩ := ih later
    exact ⟨(entry.1, spec) :: all, rfl, .cons ⟨rfl, first⟩ each⟩

theorem isWildcard_text (name : String) : isWildcard (.text name) = decide (name = wildcard) :=
  Bool.eq_iff_iff.mpr (by simp [isWildcard])

/-- Parameters declared under names do not depend on their places. -/
theorem paramsOf_text (all : Assoc String ParamSpec) :
    paramsOf (all.map fun param => (.text param.1, param.2)) =
      .ok ((all.filter fun param => param.1 ≠ wildcard).map .named) := by
  have each (kept : Assoc String ParamSpec) (place : Nat) :
      ((kept.map fun param => (Value.text param.1, param.2)).zipIdx place).mapM
        (fun entry => do return Param.ofKey entry.2 entry.1.2 (← keyOf entry.1.1)) =
        (.ok (kept.map .named) : Except Escape (List Param)) := by
    induction kept generalizing place with
    | nil => rfl
    | cons param more ih =>
      rw [List.map_cons, List.zipIdx_cons, List.mapM_cons, ih]
      rfl
  rw [paramsOf, List.filter_map, each]
  simp [Function.comp_def, isWildcard_text]

theorem ofSpecs_text {all : Assoc String ParamSpec}
    (made : ofSpecs action (all.map fun param => (.text param.1, param.2)) = .ok schema) :
    schema = ofDeclared (all.filter fun param => param.1 ≠ wildcard)
      (wildcard ∈ all.map Prod.fst) := by
  unfold ofSpecs at made
  rw [paramsOf_text] at made
  split at made
  · cases made
  split at made
  · cases made
  · cases made
    rw [ofDeclared, Schema.mk.injEq]
    refine ⟨rfl, Bool.eq_iff_iff.mpr ?_⟩
    simp [isWildcard_text]

/-- What a schema is compiled from says all there is in it. -/
theorem Lists.compile (lists : Lists value entries)
    (compiled : Schema.ofValue action value = .ok schema) :
    ∃ declared, Declares entries declared ∧
      schema = ofDeclared declared (wildcard ∈ entries.map Prod.fst) := by
  cases lists with
  | named distinct =>
    unfold Schema.ofValue Value.ofEntries at compiled
    dsimp only at compiled
    split at compiled
    · cases compiled
    · rename_i specs read
      obtain ⟨all, rfl, each⟩ := specsOf_ofEntries read
      refine ⟨all.filter fun param => param.1 ≠ wildcard,
        List.rel_filter (fun entry param same => ?_) each, ?_⟩
      · simp [same.1]
      · simp only [map_fst_of_declared each]
        exact ofSpecs_text compiled
  | nothing hollow =>
    refine ⟨[], .nil, @ofSpecs_text action schema [] ?_⟩
    unfold Schema.ofValue at compiled
    split at compiled
    · rename_i table
      obtain rfl : table = [] := by simpa [Value.isTruthy] using hollow
      exact compiled
    · rwa [hollow] at compiled

end Compiled

/-- An action with these declarations can be given parameters: those that have to be given
are, every value is of its type, and other names are given only where they are admitted. -/
structure Admissible (declared : Assoc String ParamSpec) (opened : Prop) (given : Entries) :
    Prop where
  required : ∀ param ∈ declared, param.2.isRequired = true → param.1 ∈ given.map Prod.fst
  typed : ∀ key spec value, (key, spec) ∈ declared → (key, value) ∈ given →
    ∃ taken, spec.type.Takes value taken
  known : ∀ key ∈ given.map Prod.fst, key ∉ declared.map Prod.fst → opened

/-- What is wrong with given parameters. -/
inductive Wrong (declared : Assoc String ParamSpec) (opened : Prop) (given : Entries) :
    ParamProblem → Prop
  | wrongType {key : String} {spec : ParamSpec} {value : Value} : (key, spec) ∈ declared →
    (key, value) ∈ given → (∀ taken, ¬ spec.type.Takes value taken) →
    Wrong declared opened given (.wrongType key spec.type)
  | missing {key : String} {spec : ParamSpec} : (key, spec) ∈ declared → spec.isRequired = true →
    key ∉ given.map Prod.fst → Wrong declared opened given (.missing key)
  | unknown {key : String} : key ∈ given.map Prod.fst → key ∉ declared.map Prod.fst → ¬ opened →
    Wrong declared opened given (.unknown key)

/-- Problems that are all there are, each once: first those of declared parameters in the
order of declaration, then those of others as they are given. -/
structure Reports (declared : Assoc String ParamSpec) (opened : Prop) (given : Entries)
    (problems : List ParamProblem) : Prop where
  all : ∀ problem, problem ∈ problems ↔ Wrong declared opened given problem
  once : (problems.map ParamProblem.key).Nodup
  ordered : (problems.map ParamProblem.key).Sublist
    (declared.map Prod.fst ++ (given.map Prod.fst).filter (· ∉ declared.map Prod.fst))

/-- What an action receives for a given value. -/
inductive Received (declared : Assoc String ParamSpec) : String → Value → Value → Prop
  | declared {key : String} {spec : ParamSpec} {value taken : Value} : (key, spec) ∈ declared →
    spec.type.Takes value taken → Received declared key value taken
  | other {key : String} {value : Value} : key ∉ declared.map Prod.fst →
    Received declared key value value

/-- The parameters that an action receives: the given ones in their order, then the
defaults of parameters not given in the order of declaration. -/
def Delivers (declared : Assoc String ParamSpec) (given : Entries) (params : Table) : Prop :=
  ∃ taken : Entries, List.Forall₂ (fun entry received => received.1 = entry.1 ∧
      Received declared entry.1 entry.2 received.2) given taken ∧
    params = Table.ofEntries (taken ++
      (declared.filter fun param => param.1 ∉ given.map Prod.fst ∧ param.2.default.isNone = false).map
        fun param => (param.1, param.2.default))

section Checked
variable {declared : Assoc String ParamSpec} {opened : Prop} {given : Entries}
  {problem : ParamProblem} {param : String × ParamSpec} {key : String}

theorem admissible_iff : Admissible declared opened given ↔
    ∀ problem, ¬ Wrong declared opened given problem := by
  constructor
  · rintro admissible _ (⟨member, there, none⟩ | ⟨member, required, absent⟩ | ⟨there, other, closed⟩)
    · obtain ⟨taken, takes⟩ := admissible.typed _ _ _ member there
      exact none taken takes
    · exact absent (admissible.required _ member required)
    · exact closed (admissible.known _ there other)
  · intro none
    refine ⟨fun param member required => ?_, fun key spec value member there => ?_,
      fun key there other => ?_⟩
    · exact not_not.mp fun absent => none _ (.missing member required absent)
    · exact not_forall_not.mp fun never => none _ (.wrongType member there never)
    · exact not_not.mp fun closed => none _ (.unknown there other closed)

theorem Received.unique (distinct : (declared.map Prod.fst).Nodup) {value taken other : Value}
    (received : Received declared key value taken) (again : Received declared key value other) :
    taken = other := by
  cases received with
  | declared member takes =>
    cases again with
    | declared member' takes' =>
      rw [← Assoc.get?_eq_some_iff distinct] at member member'
      cases member.symm.trans member'
      exact takes.unique takes'
    | other absent => exact absurd (List.mem_map_of_mem member) absent
  | other absent =>
    cases again with
    | declared member _ => exact absurd (List.mem_map_of_mem member) absent
    | other => rfl

/-- What an action receives is determined by what is declared and given. -/
theorem Delivers.unique (distinct : (declared.map Prod.fst).Nodup) {params other : Table}
    (delivers : Delivers declared given params) (again : Delivers declared given other) :
    params = other := by
  obtain ⟨taken, each, rfl⟩ := delivers
  obtain ⟨taken', each', rfl⟩ := again
  have same : taken = taken' := by
    refine List.right_unique_forall₂' (fun entry received received' first second => ?_) each each'
    exact Prod.ext (first.1.trans second.1.symm) (first.2.unique distinct second.2)
  rw [same]

theorem declaredProblem?_named (distinct : (given.map Prod.fst).Nodup) :
    declaredProblem? given (.named param) = some problem ↔
      (∃ value, (param.1, value) ∈ given ∧ (∀ taken, ¬ param.2.type.Takes value taken) ∧
        problem = .wrongType param.1 param.2.type) ∨
      (param.1 ∉ given.map Prod.fst ∧ param.2.isRequired = true ∧ problem = .missing param.1) := by
  unfold declaredProblem? Param.named
  dsimp only
  cases found : given.get? param.1 with
  | none =>
    have absent := Assoc.get?_eq_none_iff.mp found
    have never (value : Value) : (param.1, value) ∉ given := fun there =>
      absent (List.mem_map_of_mem there)
    simp [absent, never, @eq_comm _ problem]
  | some value =>
    have only (other : Value) : (param.1, other) ∈ given ↔ value = other := by
      rw [← Assoc.get?_eq_some_iff distinct, found, Option.some.injEq]
    have there : param.1 ∈ given.map Prod.fst := List.mem_map_of_mem ((only value).mpr rfl)
    simp [only, there, @eq_comm _ problem, ParamType.accept?_eq_none_iff]

theorem key_of_declaredProblem? (found : declaredProblem? given (.named param) = some problem) :
    problem.key = param.1 := by
  unfold declaredProblem? Param.named at found
  split at found <;> split at found <;> cases found <;> rfl

variable [Decidable opened]

theorem knows_ofDeclared :
    (ofDeclared declared opened).knows key = true ↔ key ∈ declared.map Prod.fst := by
  rw [knows, ofDeclared, List.any_map, List.any_eq_true, List.mem_map]
  exact exists_congr fun param => and_congr_right fun _ => decide_eq_true_iff

theorem problems_ofDeclared : (ofDeclared declared opened).problems given =
    declared.filterMap (fun param => declaredProblem? given (.named param)) ++
      if opened then []
      else ((given.map Prod.fst).filter (· ∉ declared.map Prod.fst)).map .unknown := by
  have unknown (key : String) : (!(ofDeclared declared opened).knows key) =
      decide (key ∉ declared.map Prod.fst) := by
    rw [decide_not, Bool.not_inj_iff, Bool.eq_iff_iff, knows_ofDeclared, decide_eq_true_iff]
  rw [problems, List.filter_map, List.map_map]
  simp only [unknown]
  rw [ofDeclared, List.filterMap_map]
  simp only [decide_eq_true_eq]
  rfl

theorem mem_problems_iff (distinct : (given.map Prod.fst).Nodup) :
    problem ∈ (ofDeclared declared opened).problems given ↔ Wrong declared opened given problem := by
  rw [problems_ofDeclared, List.mem_append, List.mem_filterMap]
  constructor
  · rintro (⟨param, member, found⟩ | found)
    · obtain ⟨value, there, none, rfl⟩ | ⟨absent, required, rfl⟩ :=
        (declaredProblem?_named distinct).mp found
      · exact .wrongType member there none
      · exact .missing member required absent
    · split at found
      · cases found
      · rename_i closed
        obtain ⟨key, member, rfl⟩ := List.mem_map.mp found
        obtain ⟨there, other⟩ := List.mem_filter.mp member
        exact .unknown there (of_decide_eq_true other) closed
  · rintro (⟨member, there, none⟩ | ⟨member, required, absent⟩ | ⟨there, other, closed⟩)
    · exact .inl ⟨_, member, (declaredProblem?_named distinct).mpr (.inl ⟨_, there, none, rfl⟩)⟩
    · exact .inl ⟨_, member, (declaredProblem?_named distinct).mpr (.inr ⟨absent, required, rfl⟩)⟩
    · rw [if_neg closed]
      exact .inr (List.mem_map_of_mem (List.mem_filter.mpr ⟨there, decide_eq_true other⟩))

theorem map_key_problems : (((ofDeclared declared opened).problems given).map ParamProblem.key).Sublist
    (declared.map Prod.fst ++ (given.map Prod.fst).filter (· ∉ declared.map Prod.fst)) := by
  rw [problems_ofDeclared, List.map_append]
  refine .append ?_ ?_
  · induction declared with
    | nil => exact .slnil
    | cons param more ih =>
      rw [List.filterMap_cons]
      split
      · exact ih.cons _
      · rename_i found
        rw [List.map_cons, key_of_declaredProblem? found]
        exact ih.cons_cons _
  · split
    · exact List.nil_sublist _
    · rw [List.map_map, show ParamProblem.key ∘ ParamProblem.unknown = id from rfl, List.map_id]

theorem reports_problems (distinct : (declared.map Prod.fst).Nodup)
    (once : (given.map Prod.fst).Nodup) :
    Reports declared opened given ((ofDeclared declared opened).problems given) where
  all _ := mem_problems_iff once
  once := by
    refine .sublist map_key_problems (List.nodup_append.mpr ⟨distinct, once.filter _, ?_⟩)
    rintro key here _ there rfl
    exact of_decide_eq_true (List.mem_filter.mp there).2 here
  ordered := map_key_problems

theorem param?_ofDeclared : (ofDeclared declared opened).param? key =
    (declared.get? key).map fun spec => .named (key, spec) := by
  rw [param?, ofDeclared]
  induction declared with
  | nil => rfl
  | cons param more ih =>
    rw [List.map_cons, List.find?_cons, ih, Assoc.get?_cons]
    by_cases same : param.1 = key
    · rw [if_pos same, ← same]
      simp [Param.named]
    · rw [if_neg same]
      simp [Param.named, same]

theorem defaults_ofDeclared : (ofDeclared declared opened).defaults given =
    Table.ofEntries ((declared.filter fun param =>
      param.1 ∉ given.map Prod.fst ∧ param.2.default.isNone = false).map
        fun param => (param.1, param.2.default)) := by
  have has (key : String) : given.has key = decide (key ∈ given.map Prod.fst) := by
    rw [Bool.eq_iff_iff, Assoc.has, ← Option.ne_none_iff_isSome, ne_eq, Assoc.get?_eq_none_iff,
      not_not, decide_eq_true_iff]
  rw [defaults, ofDeclared, Table.ofEntries, List.map_map, List.filterMap_map]
  generalize given.map Prod.fst = words at *
  induction declared with
  | nil => rfl
  | cons param more ih =>
    rw [List.filterMap_cons, ih, List.filter_cons]
    by_cases there : param.1 ∈ words <;> cases hollow : param.2.default.isNone <;>
      simp [Param.named, Param.keyValue, has, there, hollow]

theorem check_of_admissible (once : (given.map Prod.fst).Nodup)
    (admissible : Admissible declared opened given) :
    ∃ params, (ofDeclared declared opened).check given = .ok params ∧
      Delivers declared given params := by
  have fresh : given.firstRepeated? [] = none :=
    Entries.firstRepeated?_eq_none_iff.mpr ⟨once, fun _ _ => List.not_mem_nil⟩
  have fine : (ofDeclared declared opened).problems given = [] :=
    List.eq_nil_iff_forall_not_mem.mpr fun problem member =>
      admissible_iff.mp admissible problem ((mem_problems_iff once).mp member)
  have named : ∀ param ∈ (ofDeclared declared opened).params, param.key = some param.word :=
    List.forall_mem_map.mpr fun _ _ => rfl
  refine ⟨_, ?_, given.map fun entry => (entry.1,
    ((declared.get? entry.1).bind fun spec => spec.type.accept? entry.2).getD entry.2), ?_, rfl⟩
  · rw [check, fresh]
    dsimp only
    rw [fine]
    dsimp only
    rw [accepted_eq_pure named, List.mapM_pure, defaults_ofDeclared]
    simp only [pure_bind, Table.ofEntries, List.map_append, List.map_map, param?_ofDeclared,
      Option.bind_map]
    rfl
  · refine List.forall₂_map_right_iff.mpr (List.forall₂_same.mpr fun entry member => ⟨rfl, ?_⟩)
    dsimp only
    cases found : declared.get? entry.1 with
    | none => exact .other (Assoc.get?_eq_none_iff.mp found)
    | some spec =>
      have declaration := Assoc.mem_of_get? found
      obtain ⟨taken, takes⟩ := admissible.typed _ _ _ declaration member
      rw [Option.bind_some, ParamType.accept?_eq_some_iff.mpr takes]
      exact .declared declaration takes

theorem check_of_not_admissible (distinct : (declared.map Prod.fst).Nodup)
    (once : (given.map Prod.fst).Nodup) (other : ¬ Admissible declared opened given) :
    ∃ problems, (ofDeclared declared opened).check given = .error (.fault (.problems problems)) ∧
      Reports declared opened given problems := by
  have fresh : given.firstRepeated? [] = none :=
    Entries.firstRepeated?_eq_none_iff.mpr ⟨once, fun _ _ => List.not_mem_nil⟩
  refine ⟨_, ?_, reports_problems distinct once⟩
  rw [check, fresh]
  dsimp only
  split
  · rename_i fine
    refine absurd (admissible_iff.mpr fun problem wrong => ?_) other
    rw [← mem_problems_iff once, fine] at wrong
    cases wrong
  · rfl

end Checked

section Repeated
variable {schema : Schema} {given : Entries}

theorem check_of_repeated (repeated : ¬ (given.map Prod.fst).Nodup) :
    ∃ key, given.Repeats key ∧ schema.check given = .error (.fault (.duplicate key)) := by
  cases found : given.firstRepeated? [] with
  | none => exact absurd (Entries.firstRepeated?_eq_none_iff.mp found).1 repeated
  | some key =>
    obtain ⟨before, value, after, split, distinct, -, again⟩ := Entries.repeats_of_firstRepeated? found
    refine ⟨key, ⟨before, value, after, split, distinct, again.resolve_left List.not_mem_nil⟩, ?_⟩
    rw [check, found]

end Repeated

/-- Parameters are refused with a message. -/
def Refuses (schema : Schema) (given : Entries) (fault : ParamFault) (message : String) : Prop :=
  schema.check given = .error (.fault fault) ∧ fault.message = message

/-- A compiled schema does with given parameters what the declarations say. The first key
given again is refused before all else. Otherwise the action receives exactly what the
declarations make of the parameters where they can be given, and where they cannot, the
message lists every problem. -/
theorem check_meets_declarations {value action : Value} {entries : Entries} {schema : Schema}
    (lists : Lists value entries) (compiled : Schema.ofValue action value = .ok schema) :
    ∃ declared, Declares entries declared ∧ ∀ given : Entries,
      (¬ (given.map Prod.fst).Nodup → ∃ key, given.Repeats key ∧
        schema.Refuses given (.duplicate key) ("duplicate param " ++ key)) ∧
      ((given.map Prod.fst).Nodup → Admissible declared (wildcard ∈ entries.map Prod.fst) given →
        ∃ params, schema.check given = .ok params ∧
          ∀ other, Delivers declared given other ↔ other = params) ∧
      ((given.map Prod.fst).Nodup → ¬ Admissible declared (wildcard ∈ entries.map Prod.fst) given →
        ∃ problems, Reports declared (wildcard ∈ entries.map Prod.fst) given problems ∧
          schema.Refuses given (.problems problems)
            (", ".intercalate (problems.map ParamProblem.message))) := by
  obtain ⟨declared, declares, rfl⟩ := lists.compile compiled
  have distinct := declares.distinct lists.distinct
  refine ⟨declared, declares, fun given => ⟨fun repeated => ?_, fun once admissible => ?_,
    fun once other => ?_⟩⟩
  · obtain ⟨key, repeats, refused⟩ := check_of_repeated repeated
    exact ⟨key, repeats, refused, rfl⟩
  · obtain ⟨params, passed, delivers⟩ := check_of_admissible once admissible
    refine ⟨params, passed, fun other => ⟨fun also => also.unique distinct delivers, ?_⟩⟩
    rintro rfl
    exact delivers
  · obtain ⟨problems, refused, reports⟩ := check_of_not_admissible distinct once other
    exact ⟨problems, reports, refused, rfl⟩

/-- The parameters of an action for pictures. -/
def pictureEntries : Entries :=
  [("src", .table [(.text "type", .text "string"), (.text "required", .bool true)]),
    ("width", .text "integer"),
    ("lazy", .table [(.text "type", .text "boolean"), (.text "default", .bool true)])]

def pictureSchema : Schema :=
  ⟨[.named ("src", ⟨.string, .bool true, .none, .text ""⟩),
    .named ("width", ⟨.integer, .bool false, .none, .text ""⟩),
    .named ("lazy", ⟨.boolean, .bool false, .bool true, .text ""⟩)], false⟩

/-- A picture without a source, of a width in words, and with a name that is unknown. -/
def pictureGiven : Entries := [("alt", .text "shot"), ("width", .text "wide")]

theorem check_meets_declarations_picture :
    Lists (.ofEntries pictureEntries) pictureEntries ∧
    Schema.ofValue (.text "picture") (.ofEntries pictureEntries) = .ok pictureSchema ∧
    ∃ declared problems, Declares pictureEntries declared ∧
      Reports declared (wildcard ∈ pictureEntries.map Prod.fst) pictureGiven problems ∧
      problems = [.missing "src", .wrongType "width" .integer, .unknown "alt"] ∧
      pictureSchema.Refuses pictureGiven (.problems problems)
        (", ".intercalate (problems.map ParamProblem.message)) := by
  have lists : Lists (.ofEntries pictureEntries) pictureEntries := .named (by decide)
  have compiled : Schema.ofValue (.text "picture") (.ofEntries pictureEntries) =
      .ok pictureSchema := rfl
  obtain ⟨declared, declares, meets⟩ := check_meets_declarations lists compiled
  have unknown : "alt" ∉ declared.map Prod.fst := by
    rw [← map_fst_of_declared declares]
    decide
  obtain ⟨problems, reports, refused⟩ := (meets pictureGiven).2.2 (by decide) fun admissible =>
    absurd (admissible.known "alt" (by decide) unknown) (by decide)
  refine ⟨lists, compiled, declared, problems, declares, reports, ?_, refused⟩
  have found : pictureSchema.check pictureGiven = .error (.fault (.problems
      [.missing "src", .wrongType "width" .integer, .unknown "alt"])) := by rfl
  cases refused.1.symm.trans found
  rfl

end Schema

end Regen
