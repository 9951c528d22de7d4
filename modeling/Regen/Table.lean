import Regen.Value.Order

/-! Tables: values under keys that are values themselves, in the order in which
the keys were first entered. Entering a key again replaces its value; the key
stays as it was entered first. -/
namespace Regen

namespace Table

/-- The value under a key. -/
def get? (table : Table) (key : Value) : Option Value :=
  (table.find? fun entry => entry.1.sameKey key).map Prod.snd

/-- The value under a name. -/
def at? (table : Table) (name : String) : Option Value := table.get? (.text name)

/-- Whether there is a value under the key. -/
def has (table : Table) (key : Value) : Bool := (table.get? key).isSome

/-- The table with the value under a key set. -/
def set : Table → Value → Value → Table
  | [], key, value => [(key, value)]
  | entry :: more, key, value =>
    if entry.1.sameKey key then (entry.1, value) :: more else entry :: set more key value

/-- Entries entered one after the other. -/
def ofPairs (pairs : List (Value × Value)) : Table :=
  pairs.foldl (fun table pair => table.set pair.1 pair.2) []

/-- Entries under names. -/
def ofEntries (entries : Entries) : Table :=
  entries.map fun entry => (.text entry.1, entry.2)

theorem mem_of_get? {table : Table} {key value : Value} (found : table.get? key = some value) :
    ∃ entry ∈ table, entry.2 = value := by
  obtain ⟨entry, first, rfl⟩ := Option.map_eq_some_iff.mp found
  exact ⟨entry, List.mem_of_find?_eq_some first, rfl⟩

@[simp] theorem at?_nil (name : String) : at? [] name = none := rfl

theorem at?_cons (entry : Value × Value) (more : Table) (name : String) :
    at? (entry :: more) name = if entry.1.sameKey (.text name) then some entry.2 else at? more name := by
  unfold at? get?
  rw [List.find?_cons]
  by_cases same : entry.1.sameKey (.text name) = true
  · simp [same]
  · simp only [Bool.not_eq_true] at same
    simp [same]

/-- Setting a key changes what is under its name and nothing else. -/
theorem at?_set (table : Table) (key value : Value) (name : String) :
    at? (table.set key value) name =
      if key.sameKey (.text name) then some value else at? table name := by
  induction table with
  | nil => simp [set, at?_cons]
  | cons entry more ih =>
    unfold set
    by_cases same : entry.1.sameKey key = true
    · rw [if_pos same, at?_cons, at?_cons]
      by_cases named : key.sameKey (.text name) = true
      · have text := (Value.sameKey_text key name).1 named
        rw [text] at same
        simp [named, same]
      · by_cases found : entry.1.sameKey (.text name) = true
        · have text := (Value.sameKey_text entry.1 name).1 found
          rw [text] at same
          cases key with
          | text s =>
            simp only [Value.sameKey, beq_iff_eq] at same
            simp [Value.sameKey, same] at named
          | _ => simp [Value.sameKey] at same
        · simp [named, found]
    · rw [if_neg same, at?_cons, ih, at?_cons]
      by_cases found : entry.1.sameKey (.text name) = true
      · have text := (Value.sameKey_text entry.1 name).1 found
        have different : ¬ key.sameKey (.text name) = true := by
          intro named
          rw [text, (Value.sameKey_text key name).1 named] at same
          exact same (by simp [Value.sameKey])
        simp [found, different]
      · simp [found]

/-- The entries with one put in its place, the last ones coming first. -/
def insertBehind (entry : Value × Value) : Table → Except Disorder Table
  | [] => .ok [entry]
  | last :: more => do
    if ← entry.1.before? last.1 then return last :: (← insertBehind entry more)
    else return entry :: last :: more

/-- The entries in the order of their keys. -/
def sort (table : Table) : Except Disorder Table := do
  return (← table.foldlM (fun sorted entry => insertBehind entry sorted) []).reverse

end Table

namespace Value

/-- A table with text keys. -/
def ofEntries (entries : Entries) : Value := .table (Table.ofEntries entries)

end Value
end Regen
