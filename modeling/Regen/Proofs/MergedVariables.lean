import Mathlib.Data.List.Forall2
import Mathlib.Data.List.Induction
import Regen.Scope

/-! Merged variables. A table onto which the tables of sources are merged keeps what it
has, so that the first of all tables with a name decides what is under it. The merge
stops at the first source that hands over no table, and whatever it stops for names
what was wrong. -/
namespace Regen

namespace Table

/-- No key stands twice in a mapping. -/
def IsMapping (table : Table) : Prop :=
  table.Pairwise fun entry later => entry.1.sameKey later.1 = false

section Mapping
variable {table : Table} {entry : Value × Value} {key value : Value}

theorem key_of_mem_set (member : entry ∈ table.set key value) :
    entry.1 = key ∨ ∃ old ∈ table, entry.1 = old.1 := by
  induction table with
  | nil =>
    obtain rfl := List.mem_singleton.mp member
    exact .inl rfl
  | cons first more ih =>
    unfold set at member
    split at member
    · rcases List.mem_cons.mp member with rfl | member
      · exact .inr ⟨first, List.mem_cons_self, rfl⟩
      · exact .inr ⟨entry, List.mem_cons_of_mem first member, rfl⟩
    · rcases List.mem_cons.mp member with rfl | member
      · exact .inr ⟨entry, List.mem_cons_self, rfl⟩
      · rcases ih member with same | ⟨old, there, same⟩
        · exact .inl same
        · exact .inr ⟨old, List.mem_cons_of_mem first there, same⟩

/-- Setting a key that is there already does not enter it again. -/
theorem IsMapping.set (mapping : table.IsMapping) (key value : Value) :
    (table.set key value).IsMapping := by
  induction table with
  | nil => exact List.pairwise_singleton ..
  | cons first more ih =>
    obtain ⟨fresh, mapping⟩ := List.pairwise_cons.mp mapping
    unfold Table.set
    split
    · exact .cons fresh mapping
    · rename_i other
      refine .cons (fun entry member => ?_) (ih mapping)
      rcases key_of_mem_set member with same | ⟨old, there, same⟩
      · rw [same]
        exact eq_false_of_ne_true other
      · rw [same]
        exact fresh old there

theorem isMapping_ofPairs (pairs : Table) : (ofPairs pairs).IsMapping := by
  have entered (table : Table) (mapping : table.IsMapping) :
      (pairs.foldl (fun table pair => table.set pair.1 pair.2) table).IsMapping := by
    induction pairs generalizing table with
    | nil => exact mapping
    | cons pair more ih => exact ih _ (mapping.set pair.1 pair.2)
  exact entered [] .nil

/-- Of the entries under a name, the last one entered counts. -/
theorem at?_ofPairs (pairs : Table) (name : String) :
    (ofPairs pairs).at? name =
      (pairs.reverse.find? fun entry => entry.1.sameKey (.text name)).map Prod.snd := by
  induction pairs using List.reverseRecOn with
  | nil => rfl
  | append_singleton pairs pair ih =>
    rw [ofPairs, List.foldl_append, ← ofPairs, List.foldl_cons, List.foldl_nil, at?_set, ih,
      List.reverse_append, List.reverse_singleton, List.singleton_append, List.find?_cons]
    cases pair.1.sameKey (.text name) <;> rfl

/-- A mapping has one entry under a name at most, so that it may be searched from its end. -/
theorem IsMapping.find?_reverse (mapping : table.IsMapping) (name : String) :
    (table.reverse.find? fun entry => entry.1.sameKey (.text name)) =
      table.find? fun entry => entry.1.sameKey (.text name) := by
  induction table with
  | nil => rfl
  | cons first more ih =>
    obtain ⟨fresh, mapping⟩ := List.pairwise_cons.mp mapping
    rw [List.reverse_cons, List.find?_append, ih mapping, List.find?_singleton, List.find?_cons]
    by_cases named : first.1.sameKey (.text name) = true
    · have absent : more.find? (fun entry => entry.1.sameKey (.text name)) = none := by
        refine List.find?_eq_none.mpr fun later member again => ?_
        have different := fresh later member
        rw [(Value.sameKey_text ..).mp named, (Value.sameKey_text ..).mp again,
          (Value.sameKey_text ..).mpr rfl] at different
        cases different
      rw [absent, named]
      rfl
    · rw [if_neg named, Option.or_none, eq_false_of_ne_true named]

end Mapping
end Table

namespace Variables

/-- The table that is given besides the sources; nothing given is an empty one. -/
def given? : Value → Option Table
  | .none => some []
  | .table entries => some entries
  | _ => none

/-- The complaint about what is given and is no table. -/
def notGiven (given : Value) : Escape :=
  .about .badType [given] s!"invalid vars, expected a mapping, got: {given.shown}"

/-- The complaint about what a source hands over and is no table. -/
def notProvided (scope : Scope) (value : Value) : Escape :=
  .about .badType [value] (s!"invalid return value from {scope.shown}.vars_get(), " ++
    s!"expected a mapping, got: {value.shown}")

/-- A source hands over a value. -/
def Returns (surroundings : Surroundings) (source : Supplied) (value : Value) : Prop :=
  ∃ scope, source = .scope scope ∧ (scope.provide surroundings).outcome = .ok value

/-- A source hands over a mapping. -/
def Provides (surroundings : Surroundings) (source : Supplied) (table : Table) : Prop :=
  Returns surroundings source (.table table) ∧ table.IsMapping

/-- Why an object provides no table: it hands over something else, it fails for a
reason of its own, or it is no source at all. -/
inductive Refuses (surroundings : Surroundings) : Supplied → Escape → Prop
  | notTable {scope : Scope} {value : Value} : (scope.provide surroundings).outcome = .ok value →
    (∀ entries, value ≠ .table entries) →
    Refuses surroundings (.scope scope) (notProvided scope value)
  | fails {scope : Scope} {found : Escape} : (scope.provide surroundings).outcome = .error found →
    Refuses surroundings (.scope scope) found
  | noSource {object : Supplied} : object.isScope = false → Refuses surroundings object
    ⟨.missingAttribute, s!"'{object.asValue.kindName}' object has no attribute 'vars_get'"⟩

/-- What a merge stops for: what is given, or else the first source without a table. -/
inductive Stops (surroundings : Surroundings) (given : Value) (sources : List Supplied) :
    Escape → Prop
  | given : given? given = none → Stops surroundings given sources (notGiven given)
  | source {before after : List Supplied} {source : Supplied} {found : Escape} :
    given? given ≠ none → sources = before ++ source :: after →
    (∀ earlier ∈ before, ∃ entries, Returns surroundings earlier (.table entries)) →
    Refuses surroundings source found → Stops surroundings given sources found

section Merge
variable {surroundings : Surroundings} {given : Value} {merged entries table : Table}
  {source : Supplied} {sources : List Supplied} {tables : List Table} {values : List Value}
  {found : Escape}

theorem merge_of_given (known : given? given = some entries) (sources : List Supplied) :
    merge surroundings given sources = mergeOnto surroundings entries sources := by
  cases given <;> cases known <;> rfl

theorem merge_of_not_given (unknown : given? given = none) (sources : List Supplied) :
    merge surroundings given sources = .fail (notGiven given) := by
  cases given with
  | none => cases unknown
  | table entries => cases unknown
  | _ => rfl

theorem provided_eq_ok_iff :
    (provided surroundings source).outcome = .ok table ↔ Returns surroundings source (.table table) := by
  cases source with
  | scope scope =>
    rw [provided, Run.bind_eq_ok_iff]
    constructor
    · rintro ⟨value, handed, fine⟩
      cases value <;> cases fine
      exact ⟨scope, rfl, handed⟩
    · rintro ⟨_, same, handed⟩
      cases same
      exact ⟨_, handed, rfl⟩
  | generator made => exact iff_of_false nofun nofun
  | value plain => exact iff_of_false nofun nofun

theorem Refuses.outcome (refuses : Refuses surroundings source found) :
    (provided surroundings source).outcome = .error found := by
  cases refuses with
  | @notTable scope value handed other =>
    rw [provided, Run.outcome_bind, handed]
    cases value with
    | table entries => exact absurd rfl (other entries)
    | _ => rfl
  | fails failed =>
    rw [provided, Run.outcome_bind, failed]
    rfl
  | noSource none =>
    cases source with
    | scope scope => cases none
    | generator made => rfl
    | value plain => rfl

/-- An object provides a table or does not, for one reason. -/
theorem provided_ends (surroundings : Surroundings) (source : Supplied) :
    (∃ table, Returns surroundings source (.table table)) ∨
      ∃ found, Refuses surroundings source found := by
  cases source with
  | scope scope =>
    cases handed : (scope.provide surroundings).outcome with
    | error found => exact .inr ⟨found, .fails handed⟩
    | ok value =>
      by_cases table : ∃ entries, value = .table entries
      · obtain ⟨entries, rfl⟩ := table
        exact .inl ⟨entries, scope, rfl, handed⟩
      · exact .inr ⟨_, .notTable handed fun entries same => table ⟨entries, same⟩⟩
  | generator made => exact .inr ⟨_, .noSource rfl⟩
  | value plain => exact .inr ⟨_, .noSource rfl⟩

theorem mergeOnto_append (merged : Table) (first second : List Supplied) :
    mergeOnto surroundings merged (first ++ second) =
      (mergeOnto surroundings merged first).bind fun merged => mergeOnto surroundings merged second := by
  induction first generalizing merged with
  | nil => simp [mergeOnto, Run.bind, Run.pure, Run.ofExcept]
  | cons source first ih =>
    simp only [List.cons_append, mergeOnto, ih]
    exact (Run.bind_assoc ..).symm

/-- Sources can be merged in two steps, the first of which is what the second is given. -/
theorem merge_append (surroundings : Surroundings) (given : Value) (first second : List Supplied) :
    merge surroundings given (first ++ second) =
      (merge surroundings given first).bind fun merged => merge surroundings (.table merged) second := by
  cases known : given? given with
  | none =>
    rw [merge_of_not_given known, merge_of_not_given known]
    rfl
  | some entries =>
    rw [merge_of_given known, merge_of_given known, mergeOnto_append]
    rfl

theorem mergeOnto_of_returns
    (returns : List.Forall₂ (fun source table => Returns surroundings source (.table table))
      sources tables) :
    (mergeOnto surroundings merged sources).outcome = .ok (tables.foldl overlay merged) := by
  induction returns generalizing merged with
  | nil => rfl
  | cons first _ ih =>
    rw [mergeOnto, Run.outcome_bind, provided_eq_ok_iff.mpr first]
    exact ih

theorem mergeOnto_of_refuses {before after : List Supplied}
    (earlier : ∀ earlier ∈ before, ∃ entries, Returns surroundings earlier (.table entries))
    (refuses : Refuses surroundings source found) :
    (mergeOnto surroundings merged (before ++ source :: after)).outcome = .error found := by
  induction before generalizing merged with
  | nil =>
    rw [List.nil_append, mergeOnto, Run.outcome_bind, refuses.outcome]
    rfl
  | cons first before ih =>
    obtain ⟨entries, returns⟩ := earlier first List.mem_cons_self
    rw [List.cons_append, mergeOnto, Run.outcome_bind, provided_eq_ok_iff.mpr returns]
    exact ih fun earlier' member => earlier earlier' (List.mem_cons_of_mem first member)

/-- Either all sources hand over tables, or there is a first one that does not. -/
theorem sources_end (surroundings : Surroundings) (sources : List Supplied) :
    (∃ tables, List.Forall₂ (fun source table => Returns surroundings source (.table table))
        sources tables) ∨
      ∃ before source after found, sources = before ++ source :: after ∧
        (∀ earlier ∈ before, ∃ entries, Returns surroundings earlier (.table entries)) ∧
        Refuses surroundings source found := by
  induction sources with
  | nil => exact .inl ⟨[], .nil⟩
  | cons first more ih =>
    rcases provided_ends surroundings first with ⟨table, returns⟩ | ⟨found, refuses⟩
    · rcases ih with ⟨tables, later⟩ | ⟨before, source, after, found, rfl, earlier, refuses⟩
      · exact .inl ⟨table :: tables, .cons returns later⟩
      · refine .inr ⟨first :: before, source, after, found, rfl, ?_, refuses⟩
        exact List.forall_mem_cons.mpr ⟨⟨table, returns⟩, earlier⟩
    · exact .inr ⟨[], first, more, found, rfl, by simp, refuses⟩

/-- A merge fails for what is given, or else for the first source without a table. -/
theorem merge_eq_error_iff :
    (merge surroundings given sources).outcome = .error found ↔
      Stops surroundings given sources found := by
  constructor
  · intro failed
    cases known : given? given with
    | none =>
      rw [merge_of_not_given known] at failed
      cases failed
      exact .given known
    | some entries =>
      rw [merge_of_given known] at failed
      rcases sources_end surroundings sources with
        ⟨tables, returns⟩ | ⟨before, source, after, found', rfl, earlier, refuses⟩
      · rw [mergeOnto_of_returns returns] at failed
        cases failed
      · rw [mergeOnto_of_refuses earlier refuses] at failed
        cases failed
        exact .source (by rw [known]; nofun) rfl earlier refuses
  · intro stops
    cases stops with
    | given unknown => rw [merge_of_not_given unknown, Run.outcome_fail]
    | source known split earlier refuses =>
      obtain ⟨entries, known⟩ := Option.ne_none_iff_exists'.mp known
      rw [merge_of_given known, split, mergeOnto_of_refuses earlier refuses]

/-- A complaint about a type is one unless it cannot be written. -/
theorem kind_about {kind : EscapeKind} {value : Value} (message : String) (writable : value.isWritable) :
    (Escape.about kind [value] message).kind = kind := by
  simp [Escape.about, writable]

/-- Where every source returns, a merge fails exactly when what is given or one of the
values returned is no table. -/
theorem merge_fails_iff_of_returns (returns : List.Forall₂ (Returns surroundings) sources values) :
    (∃ found, (merge surroundings given sources).outcome = .error found) ↔
      given? given = none ∨ ∃ value ∈ values, ∀ entries, value ≠ .table entries := by
  have onto (merged : Table) :
      (∃ found, (mergeOnto surroundings merged sources).outcome = .error found) ↔
        ∃ value ∈ values, ∀ entries, value ≠ .table entries := by
    induction returns generalizing merged with
    | nil => exact iff_of_false nofun nofun
    | @cons source value more values first later ih =>
      by_cases table : ∃ entries, value = .table entries
      · obtain ⟨entries, rfl⟩ := table
        rw [mergeOnto, Run.outcome_bind, provided_eq_ok_iff.mpr first]
        simpa [Except.bind] using ih (overlay merged entries)
      · have other : ∀ entries, value ≠ .table entries := fun entries same => table ⟨entries, same⟩
        obtain ⟨scope, rfl, handed⟩ := first
        rw [mergeOnto, Run.outcome_bind, (Refuses.notTable handed other).outcome]
        exact iff_of_true ⟨_, rfl⟩ ⟨value, List.mem_cons_self, other⟩
  cases known : given? given with
  | none =>
    rw [merge_of_not_given known]
    exact iff_of_true ⟨_, rfl⟩ (.inl rfl)
  | some entries =>
    rw [merge_of_given known, onto entries]
    simp

/-- Where every source returns, a merge that fails complains about a type, provided that
what it complains about can be written. -/
theorem badType_of_merge (returns : List.Forall₂ (Returns surroundings) sources values)
    (givenWritable : given.isWritable) (writable : ∀ value ∈ values, value.isWritable)
    (failed : (merge surroundings given sources).outcome = .error found) : found.kind = .badType := by
  have returned (source : Supplied) (member : source ∈ sources) :
      ∃ value ∈ values, Returns surroundings source value := by
    obtain ⟨i, here, rfl⟩ := List.mem_iff_getElem.mp member
    have there : i < values.length := returns.length_eq ▸ here
    exact ⟨values[i], List.getElem_mem there, returns.get here there⟩
  cases merge_eq_error_iff.mp failed with
  | given => exact kind_about _ givenWritable
  | @source before after source found known split earlier refuses =>
    obtain ⟨value, member, scope, rfl, handed⟩ := returned source (by simp [split])
    cases refuses with
    | notTable handed' other =>
      cases handed.symm.trans handed'
      exact kind_about _ (writable value member)
    | fails failed => cases handed.symm.trans failed
    | noSource none => cases none

/-- In the merge of two mappings the first one counts where it has a name. -/
theorem at?_overlay {first second : Table} (mapping : first.IsMapping) (mapping' : second.IsMapping)
    (name : String) : (overlay first second).at? name = (first.at? name).or (second.at? name) := by
  rw [overlay, Table.at?_ofPairs, List.reverse_append, List.find?_append, mapping.find?_reverse,
    mapping'.find?_reverse, Option.map_or]
  rfl

/-- In the merge of any number of mappings the first one with a name counts. -/
theorem at?_foldl_overlay (mapping : merged.IsMapping) (mappings : ∀ table ∈ tables, table.IsMapping)
    (name : String) : (tables.foldl overlay merged).at? name =
      (merged.at? name).or (tables.findSome? fun table => table.at? name) := by
  induction tables generalizing merged with
  | nil => rw [List.foldl_nil, List.findSome?_nil, Option.or_none]
  | cons table more ih =>
    obtain ⟨first, later⟩ := List.forall_mem_cons.mp mappings
    have both : (overlay merged table).IsMapping := Table.isMapping_ofPairs _
    rw [List.foldl_cons, ih both later, at?_overlay mapping first, Option.or_assoc,
      List.findSome?_cons]
    cases table.at? name <;> rfl

/-- What is merged from mappings is under each name what the first of them has. -/
theorem at?_of_merge (known : given? given = some entries) (mapping : entries.IsMapping)
    (provides : List.Forall₂ (Provides surroundings) sources tables) :
    ∃ merged, (merge surroundings given sources).outcome = .ok merged ∧
      ∀ name, merged.at? name =
        (entries.at? name).or (tables.findSome? fun table => table.at? name) := by
  refine ⟨_, ?_, at?_foldl_overlay mapping ?_⟩
  · rw [merge_of_given known]
    exact mergeOnto_of_returns (provides.imp fun _ _ provided => provided.1)
  · induction provides with
    | nil => simp
    | cons first _ ih => exact List.forall_mem_cons.mpr ⟨first.2, ih⟩

end Merge
end Variables
end Regen
