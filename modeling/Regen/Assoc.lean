/-! Association lists in the order in which their keys were first entered. A key
stands at most once; entering it again replaces its value in place. -/
namespace Regen

/-- Values under keys. -/
abbrev Assoc (κ ν : Type) := List (κ × ν)

namespace Assoc

variable {κ ν : Type} [DecidableEq κ]

/-- The value under a key. -/
def get? (entries : Assoc κ ν) (key : κ) : Option ν :=
  entries.lookup key

/-- Whether there is a value under the key. -/
def has (entries : Assoc κ ν) (key : κ) : Bool :=
  (get? entries key).isSome

/-- The entries with the value under a key set: in place where the key is
present, at the end otherwise. -/
def set : Assoc κ ν → κ → ν → Assoc κ ν
  | [], key, value => [(key, value)]
  | entry :: more, key, value =>
    if entry.1 = key then (key, value) :: more else entry :: set more key value

/-- The entries without the one under a key. -/
def erase (entries : Assoc κ ν) (key : κ) : Assoc κ ν :=
  entries.filter fun entry => entry.1 ≠ key

/-- Entries entered one after the other. -/
def ofPairs (pairs : List (κ × ν)) : Assoc κ ν :=
  pairs.foldl (fun entries pair => set entries pair.1 pair.2) []

@[simp] theorem get?_nil (key : κ) : get? ([] : Assoc κ ν) key = none := rfl

theorem get?_cons (entry : κ × ν) (more : Assoc κ ν) (key : κ) :
    get? (entry :: more) key = if entry.1 = key then some entry.2 else get? more key := by
  obtain ⟨name, value⟩ := entry
  by_cases same : name = key
  · simp [get?, same]
  · simp [get?, List.lookup_cons, same, beq_false_of_ne (Ne.symm same)]

theorem set_cons (entry : κ × ν) (more : Assoc κ ν) (key : κ) (value : ν) :
    set (entry :: more) key value =
      if entry.1 = key then (key, value) :: more else entry :: set more key value := rfl

theorem get?_set (entries : Assoc κ ν) (key other : κ) (value : ν) :
    get? (set entries key value) other = if key = other then some value else get? entries other := by
  induction entries with
  | nil => simp [set, get?_cons]
  | cons entry more ih =>
    rw [set_cons, get?_cons]
    by_cases same : entry.1 = key
    · rw [if_pos same, get?_cons, same]
      by_cases found : key = other <;> simp [found]
    · rw [if_neg same, get?_cons, ih]
      by_cases found : entry.1 = other
      · have different : key ≠ other := fun equal => same (found.trans equal.symm)
        simp [found, different]
      · simp [found]

/-- A new key is entered at the end. -/
theorem set_of_absent {entries : Assoc κ ν} {key : κ} {value : ν}
    (absent : get? entries key = none) : set entries key value = entries ++ [(key, value)] := by
  induction entries with
  | nil => rfl
  | cons entry more ih =>
    rw [get?_cons] at absent
    by_cases same : entry.1 = key
    · simp [same] at absent
    · rw [if_neg same] at absent
      rw [set_cons, if_neg same, ih absent, List.cons_append]

/-- Values under different keys that are present can be replaced in either order. -/
theorem set_comm {entries : Assoc κ ν} {key other : κ} (value value' : ν) (different : key ≠ other)
    (there : get? entries key ≠ none) (there' : get? entries other ≠ none) :
    set (set entries key value) other value' = set (set entries other value') key value := by
  induction entries with
  | nil => exact absurd rfl there
  | cons entry more ih =>
    rw [get?_cons] at there there'
    by_cases first : entry.1 = key
    · simp [set_cons, first, different]
    · rw [if_neg first] at there
      by_cases second : entry.1 = other
      · simp [set_cons, second, different.symm]
      · rw [if_neg second] at there'
        simp [set_cons, first, second, ih there there']

theorem mem_of_get? {entries : Assoc κ ν} {key : κ} {value : ν}
    (found : get? entries key = some value) : (key, value) ∈ entries := by
  induction entries with
  | nil => cases found
  | cons entry more ih =>
    rw [get?_cons] at found
    split at found
    · rename_i same
      cases found
      exact same ▸ List.mem_cons_self
    · exact List.mem_cons_of_mem entry (ih found)

theorem get?_eq_none_iff {entries : Assoc κ ν} {key : κ} :
    entries.get? key = none ↔ key ∉ entries.map Prod.fst := by
  induction entries with
  | nil => simp
  | cons entry more ih =>
    rw [get?_cons, List.map_cons, List.mem_cons, not_or, ← ih]
    split
    · rename_i same
      exact iff_of_false (Option.some_ne_none _) fun absent => absent.1 same.symm
    · rename_i other
      exact (and_iff_right (Ne.symm other)).symm

/-- Where keys are different, what is found under one is what stands there. -/
theorem get?_eq_some_iff {entries : Assoc κ ν} {key : κ} {value : ν}
    (distinct : (entries.map Prod.fst).Nodup) :
    entries.get? key = some value ↔ (key, value) ∈ entries := by
  refine ⟨mem_of_get?, fun member => ?_⟩
  induction entries with
  | nil => cases member
  | cons entry more ih =>
    obtain ⟨fresh, distinct⟩ := List.nodup_cons.mp distinct
    rw [get?_cons]
    rcases List.mem_cons.mp member with rfl | later
    · exact if_pos rfl
    · have other : entry.1 ≠ key := fun same => fresh (same ▸ List.mem_map_of_mem later)
      rw [if_neg other]
      exact ih distinct later

theorem get?_erase (entries : Assoc κ ν) (key other : κ) :
    get? (erase entries key) other = if key = other then none else get? entries other := by
  induction entries with
  | nil => simp [erase]
  | cons entry more ih =>
    have step : erase (entry :: more) key =
        if entry.1 = key then erase more key else entry :: erase more key := by
      by_cases same : entry.1 = key <;> simp [erase, same]
    rw [step]
    by_cases same : entry.1 = key
    · rw [if_pos same, ih, get?_cons]
      by_cases found : key = other
      · simp [found]
      · simp [found, same]
    · rw [if_neg same, get?_cons, get?_cons, ih]
      by_cases found : entry.1 = other
      · have different : key ≠ other := fun equal => same (found.trans equal.symm)
        simp [found, different]
      · simp [found]

end Assoc
end Regen
