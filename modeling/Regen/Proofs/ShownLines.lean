import Mathlib.Data.List.Basic
import Regen.Proofs.Cuts
import Regen.Value

/-! Line feeds in what is shown of a value. Quoting escapes them, and neither a number nor the
brackets, commas and names around the parts of a value have any: what is shown of a value has
a line feed only where an object foreign to the program is pictured with one, the value itself
or one inside it. -/
namespace Regen.Text

variable {text : Text} {mark c : Char}

theorem hexDigit_ne_lineFeed (n : Nat) : hexDigit (n % 16) ≠ '\n' := by
  have all : ∀ digit < 16, hexDigit digit ≠ '\n' := by decide
  exact all _ (Nat.mod_lt n (by decide))

theorem lineFeed_notMem_hexDigits (width n : Nat) : '\n' ∉ hexDigits width n := by
  induction width generalizing n with
  | zero => exact List.not_mem_nil
  | succ width ih =>
    rw [hexDigits, List.mem_append, List.mem_singleton, not_or]
    exact ⟨ih _, (hexDigit_ne_lineFeed n).symm⟩

theorem lineFeed_notMem_escapeChar (other : mark ≠ '\n') : '\n' ∉ escapeChar mark c := by
  have code (kind : Char) (width n : Nat) (named : kind ≠ '\n') :
      '\n' ∉ '\\' :: kind :: hexDigits width n := by
    simp [named.symm, lineFeed_notMem_hexDigits]
  unfold escapeChar
  split_ifs with escaped feed
  · obtain rfl | rfl : c = mark ∨ c = '\\' := by simpa using escaped
    · simp [other.symm]
    · decide
  · decide
  · decide
  · decide
  · simpa using Ne.symm (by simpa using feed)
  · exact code 'x' 2 _ (by decide)
  · exact code 'u' 4 _ (by decide)
  · exact code 'U' 8 _ (by decide)

/-- Quoted text is on one line. -/
theorem lineFeed_notMem_quoted (text : Text) : '\n' ∉ quoted text := by
  have other : quotationMark text ≠ '\n' := by
    unfold quotationMark
    split <;> decide
  simp only [quoted, List.mem_append, List.mem_cons, List.mem_flatMap, List.not_mem_nil, or_false,
    not_or]
  exact ⟨⟨other.symm, fun ⟨_, _, member⟩ => lineFeed_notMem_escapeChar other member⟩, other.symm⟩

end Regen.Text

namespace Regen.Decimal

theorem lineFeed_notMem_repr (n : Nat) : '\n' ∉ (Nat.repr n).toList := by
  intro member
  rw [Nat.toList_repr] at member
  exact absurd (Nat.isDigit_of_mem_toDigits (by decide) (by decide) member) (by decide)

theorem lineFeed_notMem_toString (n : Int) : '\n' ∉ (toString n).toList := by
  cases n with
  | ofNat n => exact lineFeed_notMem_repr n
  | negSucc n =>
    have written : toString (Int.negSucc n) = "-" ++ Nat.repr (n + 1) := rfl
    rw [written, String.toList_append, List.mem_append, not_or]
    exact ⟨by decide, lineFeed_notMem_repr _⟩

section Layout
variable {digits : Text}

theorem lineFeed_notMem_zeros (n : Nat) : '\n' ∉ List.replicate n '0' := fun member =>
  absurd (List.eq_of_mem_replicate member) (by decide)

theorem Layout.lineFeed_notMem_positional (clear : '\n' ∉ digits) (point : Int) :
    '\n' ∉ positional digits point := by
  unfold positional
  split_ifs
  · refine List.not_mem_append (List.not_mem_cons_of_ne_of_not_mem (by decide) ?_) clear
    exact List.not_mem_cons_of_ne_of_not_mem (by decide) (lineFeed_notMem_zeros _)
  · exact List.not_mem_append (List.not_mem_append clear (lineFeed_notMem_zeros _)) (by decide)
  · exact List.not_mem_append (mt List.mem_of_mem_take clear)
      (List.not_mem_cons_of_ne_of_not_mem (by decide) (mt List.mem_of_mem_drop clear))

theorem Layout.lineFeed_notMem_scientific (layout : Layout) (clear : '\n' ∉ digits) (point : Int) :
    '\n' ∉ layout.scientific digits point := by
  have sign : (if point - 1 < 0 then '-' else '+') ≠ '\n' := by split <;> decide
  unfold scientific
  refine List.not_mem_append (List.not_mem_append (List.not_mem_append ?_ ?_) ?_)
    (lineFeed_notMem_repr _)
  · exact mt List.mem_of_mem_take clear
  · -- a fraction is written only if there is a digit for it
    split
    · exact List.not_mem_nil
    · exact List.not_mem_cons_of_ne_of_not_mem (by decide) (mt List.mem_of_mem_drop clear)
  · exact List.not_mem_cons_of_ne_of_not_mem (by decide)
      (List.not_mem_cons_of_ne_of_not_mem sign.symm (lineFeed_notMem_zeros _))

end Layout

/-- Numbers are written on one line. -/
theorem Layout.lineFeed_notMem_write (layout : Layout) (x : Binary64) : '\n' ∉ layout.write x := by
  have sign (negative : Bool) : '\n' ∉ if negative then ['-'] else [] := by
    cases negative <;> decide
  cases x with
  | nan => simp [write]
  | infinity negative => exact List.not_mem_append (sign negative) (by decide)
  | finite negative significand exponent =>
    have digits : '\n' ∉ Text.trimEnd (· == '0')
        (Nat.repr (shortest significand exponent).digits).toList :=
      mt Text.mem_of_trimEnd (lineFeed_notMem_repr _)
    rw [write]
    split
    · exact List.not_mem_append (sign negative) (by decide)
    · dsimp only
      split
      · exact List.not_mem_append (sign negative) (lineFeed_notMem_positional digits _)
      · exact List.not_mem_append (sign negative) (layout.lineFeed_notMem_scientific digits _)

end Regen.Decimal

namespace Regen

theorem lineFeed_notMem_quote (s : String) : '\n' ∉ (quote s).toList := by
  rw [quote, String.toList_ofList]
  exact Text.lineFeed_notMem_quoted s.toList

/-- Commas between texts add no line feed. -/
theorem lineFeed_mem_intercalate (texts : List String) :
    '\n' ∈ (", ".intercalate texts).toList ↔ ∃ text ∈ texts, '\n' ∈ text.toList := by
  induction texts with
  | nil => simp
  | cons first more ih =>
    cases more with
    | nil => simp
    | cons second more =>
      rw [String.intercalate_cons_cons, String.toList_append, List.mem_append, ih,
        String.toList_append, List.mem_append, or_iff_left (by decide : '\n' ∉ ", ".toList),
        ← List.exists_mem_cons_iff (fun text : String => '\n' ∈ text.toList) first]

/-- Nor do the brackets around them. -/
theorem lineFeed_mem_listing {opening closing : String} (clear : '\n' ∉ opening.toList)
    (clear' : '\n' ∉ closing.toList) (texts : List String) :
    '\n' ∈ (opening ++ ", ".intercalate texts ++ closing).toList ↔
      ∃ text ∈ texts, '\n' ∈ text.toList := by
  rw [String.toList_append, List.mem_append, or_iff_left clear', String.toList_append,
    List.mem_append, or_iff_right clear, lineFeed_mem_intercalate]

namespace Value
variable {value part : Value}

/-- The values that a value is made of. -/
def components : Value → List Value
  | .list items => items
  | .tuple items => items
  | .table entries => entries.flatMap fun entry => [entry.1, entry.2]
  | .param type required default doc => [type, required, default, doc]
  | .action name params doc container => [name, params, doc, container]
  | _ => []

theorem sizeOf_lt_of_mem_components (member : part ∈ value.components) :
    sizeOf part < sizeOf value := by
  cases value with
  | list items =>
    have smaller : sizeOf part < sizeOf items := List.sizeOf_lt_of_mem member
    simp only [list.sizeOf_spec]
    omega
  | tuple items =>
    have smaller : sizeOf part < sizeOf items := List.sizeOf_lt_of_mem member
    simp only [tuple.sizeOf_spec]
    omega
  | table entries =>
    obtain ⟨⟨key, given⟩, listed, member⟩ := List.mem_flatMap.mp member
    have smaller := List.sizeOf_lt_of_mem listed
    simp only [table.sizeOf_spec, Prod.mk.sizeOf_spec] at smaller ⊢
    rcases List.mem_pair.mp member with rfl | rfl <;> omega
  | param type required default doc =>
    simp only [components, List.mem_cons, List.not_mem_nil, or_false] at member
    simp only [param.sizeOf_spec]
    rcases member with rfl | rfl | rfl | rfl <;> omega
  | action name params doc container =>
    simp only [components, List.mem_cons, List.not_mem_nil, or_false] at member
    simp only [action.sizeOf_spec]
    rcases member with rfl | rfl | rfl | rfl <;> omega
  | _ => cases member

/-- A value shown over several lines: an object that is pictured so, or a value made of one. -/
inductive Ragged : Value → Prop
  | object {kind picture : String} : '\n' ∈ picture.toList → Ragged (.object kind picture)
  | made {part value : Value} : part ∈ value.components → Ragged part → Ragged value

theorem shownItems_eq_map (items : List Value) : shownItems items = items.map shown := by
  induction items with
  | nil => rfl
  | cons item more ih => exact congrArg (item.shown :: ·) ih

theorem shownEntries_eq_map (entries : List (Value × Value)) :
    shownEntries entries = entries.map fun entry => shown entry.1 ++ ": " ++ shown entry.2 := by
  induction entries with
  | nil => rfl
  | cons entry more ih => exact congrArg ((entry.1.shown ++ ": " ++ entry.2.shown) :: ·) ih

theorem shown_list (items : List Value) :
    shown (.list items) = "[" ++ ", ".intercalate (items.map shown) ++ "]" := by
  rw [← shownItems_eq_map]; rfl

/-- A tuple of one item has a comma behind it. -/
theorem shown_tuple (items : List Value) : shown (.tuple items) =
    "(" ++ ", ".intercalate (items.map shown) ++ if items.length = 1 then ",)" else ")" := by
  match items with
  | [] => rfl
  | [item] => rw [List.map_singleton, String.intercalate_singleton, String.append_assoc]; rfl
  | first :: second :: more =>
    rw [List.map_cons, List.map_cons, ← shownItems_eq_map, if_neg (by simp)]; rfl

theorem shown_table (entries : List (Value × Value)) : shown (.table entries) = "\x7b" ++
    ", ".intercalate (entries.map fun entry => shown entry.1 ++ ": " ++ shown entry.2) ++
      "\x7d" := by
  rw [← shownEntries_eq_map]; rfl

/-- A line feed in what is shown of a value is in the picture of an object or comes from one of
the values it is made of. -/
theorem lineFeed_mem_shown_iff_components : '\n' ∈ (shown value).toList ↔
    (∃ kind picture, value = .object kind picture ∧ '\n' ∈ picture.toList) ∨
      ∃ part ∈ value.components, '\n' ∈ (shown part).toList := by
  have parts {members : List Value} : (∃ text ∈ members.map shown, '\n' ∈ text.toList) ↔
      ∃ part ∈ members, '\n' ∈ part.shown.toList := by simp
  cases value with
  | none => simp [show shown .none = "None" from rfl, components]
  | bool b =>
    cases b with
    | false => simp [show shown (.bool false) = "False" from rfl, components]
    | true => simp [show shown (.bool true) = "True" from rfl, components]
  | int n =>
    have clear := Decimal.lineFeed_notMem_toString n
    simpa [show shown (.int n) = toString n from rfl, components] using clear
  | float x =>
    have clear := floatLayout.lineFeed_notMem_write x
    simpa [show shown (.float x) = String.ofList (floatLayout.write x) from rfl, components] using clear
  | text s =>
    simpa [show shown (.text s) = quote s from rfl, components] using lineFeed_notMem_quote s
  | list items =>
    rw [shown_list, lineFeed_mem_listing (by decide) (by decide), parts]
    simp [components]
  | tuple items =>
    rw [shown_tuple, lineFeed_mem_listing (by decide) (by split <;> decide), parts]
    simp [components]
  | table entries =>
    rw [shown_table, lineFeed_mem_listing (by decide) (by decide)]
    simp only [List.mem_map, exists_exists_and_eq_and, String.toList_append, List.mem_append,
      or_iff_left (by decide : '\n' ∉ ": ".toList), components, List.mem_flatMap, List.mem_pair,
      reduceCtorEq, false_and, exists_false, false_or]
    constructor
    · rintro ⟨entry, listed, key | given⟩
      · exact ⟨_, ⟨entry, listed, .inl rfl⟩, key⟩
      · exact ⟨_, ⟨entry, listed, .inr rfl⟩, given⟩
    · rintro ⟨_, ⟨entry, listed, rfl | rfl⟩, member⟩
      · exact ⟨entry, listed, .inl member⟩
      · exact ⟨entry, listed, .inr member⟩
  | «variable» name =>
    have written : shown (.variable name) = "Variable(name=" ++ quote name ++ ")" := rfl
    simpa [written, components] using lineFeed_notMem_quote name
  | param type required default doc =>
    have written : shown (.param type required default doc) =
      "ParamSpec(type=" ++ shown type ++ ", required=" ++ shown required ++ ", default=" ++
        shown default ++ ", doc=" ++ shown doc ++ ")" := rfl
    simp [written, components]
  | action name params doc container =>
    have written : shown (.action name params doc container) =
      "ActionSpec(name=" ++ shown name ++ ", handler=None, params=" ++ shown params ++ ", doc=" ++
        shown doc ++ ", container=" ++ shown container ++ ")" := rfl
    simp [written, components]
  | object kind picture => simp [show shown (.object kind picture) = picture from rfl, components]

/-- What is shown of a value has a line feed exactly when the value is shown over several
lines. -/
theorem lineFeed_mem_shown_iff (value : Value) : '\n' ∈ (shown value).toList ↔ value.Ragged := by
  constructor
  · intro member
    rcases lineFeed_mem_shown_iff_components.mp member with ⟨kind, picture, rfl, broken⟩ | ⟨part, inside, member⟩
    · exact .object broken
    · have smaller := sizeOf_lt_of_mem_components inside
      exact .made inside ((lineFeed_mem_shown_iff part).mp member)
  · intro ragged
    induction ragged with
    | object broken => exact lineFeed_mem_shown_iff_components.mpr (.inl ⟨_, _, rfl, broken⟩)
    | made inside _ ih => exact lineFeed_mem_shown_iff_components.mpr (.inr ⟨_, inside, ih⟩)
termination_by sizeOf value

end Value
end Regen
