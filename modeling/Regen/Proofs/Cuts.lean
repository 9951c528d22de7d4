import Mathlib.Data.List.TakeWhile
import Regen.Text.Cut

/-! Cutting and splitting undone. A cut is at the first separator, so what is cut in front
of it and behind it is told by the text alone; and a split finds the fields again that were
written with a separator behind each of them. -/
namespace Regen.Text

variable {separator c : Char} {isSeparator : Char → Bool} {text front field last : Text}
  {rest : Option Text} {fields : List Text}

/-- A separator and the text behind it, where there is one. -/
def behind (separator : Char) (rest : Option Text) : Text := rest.elim [] (separator :: ·)

@[simp] theorem behind_none : behind separator none = [] := rfl

@[simp] theorem behind_some : behind separator (some text) = separator :: text := rfl

theorem cutAt_behind (clear : separator ∉ front) :
    cutAt separator (front ++ behind separator rest) = (front, rest) := by
  induction front with
  | nil => cases rest <;> simp [cutAt]
  | cons c front ih =>
    obtain ⟨other, clear⟩ := not_or.mp (mt List.mem_cons.mpr clear)
    rw [List.cons_append, cutAt, if_neg (Ne.symm other), ih clear]

/-- A cut is at the first separator, where there is one. -/
theorem cutAt_eq_iff :
    cutAt separator text = (front, rest) ↔ separator ∉ front ∧ text = front ++ behind separator rest := by
  constructor
  · intro cut
    have before := cutAt_fst separator text
    have whole := cutAt_restores separator text
    simp only [cut] at before whole
    refine ⟨fun member => ?_, whole.symm⟩
    rw [before] at member
    have kept := List.mem_takeWhile_imp member
    simp at kept
  · rintro ⟨clear, rfl⟩
    exact cutAt_behind clear

theorem drop_length_takeWhile (p : Char → Bool) (text : Text) :
    text.drop (text.takeWhile p).length = text.dropWhile p := by
  induction text with
  | nil => rfl
  | cons c rest ih => by_cases continues : p c <;> simp [continues, ih]

/-- A character that separates nothing belongs to the first field. -/
theorem splitWhere_cons (inside : isSeparator c = false)
    (split : splitWhere isSeparator text = field :: fields) :
    splitWhere isSeparator (c :: text) = (c :: field) :: fields := by
  rw [splitWhere, if_neg (by simp [inside]), split]

/-- A field is made of characters of the text that separate nothing. -/
theorem inside_of_field (listed : field ∈ splitWhere isSeparator text) (member : c ∈ field) :
    c ∈ text ∧ isSeparator c = false := by
  induction text generalizing field with
  | nil =>
    obtain rfl := List.mem_singleton.mp listed
    cases member
  | cons d text ih =>
    cases separates : isSeparator d with
    | true =>
      rw [splitWhere, if_pos separates] at listed
      rcases List.mem_cons.mp listed with rfl | later
      · cases member
      · exact (ih later member).imp_left (List.mem_cons_of_mem d)
    | false =>
      obtain ⟨first, more, split⟩ := List.exists_cons_of_ne_nil (splitWhere_ne_nil isSeparator text)
      rw [splitWhere_cons separates split] at listed
      rw [split] at ih
      rcases List.mem_cons.mp listed with rfl | later
      · rcases List.mem_cons.mp member with rfl | member
        · exact ⟨List.mem_cons_self, separates⟩
        · exact (ih List.mem_cons_self member).imp_left (List.mem_cons_of_mem d)
      · exact (ih (List.mem_cons_of_mem _ later) member).imp_left (List.mem_cons_of_mem d)

theorem splitOn_of_clear (clear : separator ∉ text) : splitOn separator text = [text] := by
  induction text with
  | nil => rfl
  | cons c text ih =>
    obtain ⟨other, clear⟩ := not_or.mp (mt List.mem_cons.mpr clear)
    exact splitWhere_cons (beq_eq_false_iff_ne.mpr (Ne.symm other)) (ih clear)

theorem splitOn_append (clear : separator ∉ field) (text : Text) :
    splitOn separator (field ++ separator :: text) = field :: splitOn separator text := by
  induction field with
  | nil => simp [splitOn, splitWhere]
  | cons c field ih =>
    obtain ⟨other, clear⟩ := not_or.mp (mt List.mem_cons.mpr clear)
    exact splitWhere_cons (beq_eq_false_iff_ne.mpr (Ne.symm other)) (ih clear)

/-- Fields that are written with a separator behind each are found again, with what is
behind the last separator. -/
theorem splitOn_flatMap (clear : ∀ field ∈ fields, separator ∉ field) (clear' : separator ∉ last) :
    splitOn separator (fields.flatMap (· ++ [separator]) ++ last) = fields ++ [last] := by
  induction fields with
  | nil => exact splitOn_of_clear clear'
  | cons field fields ih =>
    obtain ⟨here, later⟩ := List.forall_mem_cons.mp clear
    rw [List.flatMap_cons, List.append_assoc, List.append_assoc, List.singleton_append,
      splitOn_append here, ih later, List.cons_append]

theorem mem_of_trimEnd {drops : Char → Bool} (member : c ∈ trimEnd drops text) : c ∈ text := by
  rw [trimEnd, List.mem_reverse] at member
  exact List.mem_reverse.mp ((List.dropWhile_suffix drops).mem member)

theorem mem_of_joinWith {between : Text} {pieces : List Text} (member : c ∈ joinWith between pieces) :
    c ∈ between ∨ ∃ piece ∈ pieces, c ∈ piece := by
  fun_induction joinWith between pieces with
  | case1 => cases member
  | case2 piece => exact .inr ⟨piece, List.mem_singleton_self _, member⟩
  | case3 piece more _ ih =>
    simp only [List.mem_append] at member
    rcases member with (here | between) | later
    · exact .inr ⟨piece, List.mem_cons_self, here⟩
    · exact .inl between
    · rcases ih later with between | ⟨other, listed, inner⟩
      · exact .inl between
      · exact .inr ⟨other, List.mem_cons_of_mem _ listed, inner⟩

/-- Joining writes the separator behind each piece but the last. -/
theorem joinWith_concat (between : Text) (pieces : List Text) (last : Text) :
    joinWith between (pieces ++ [last]) = pieces.flatMap (· ++ between) ++ last := by
  induction pieces with
  | nil => rfl
  | cons piece pieces ih =>
    obtain ⟨second, more, split⟩ := List.exists_cons_of_ne_nil
      (List.append_ne_nil_of_right_ne_nil pieces (List.cons_ne_nil last []))
    have step : joinWith between (piece :: second :: more) =
        piece ++ between ++ joinWith between (second :: more) := rfl
    rw [List.cons_append, split, step, ← split, ih, List.flatMap_cons]
    simp only [List.append_assoc]

theorem dropEmptyInner_concat (first : Text) (inner : List Text) (last : Text) :
    dropEmptyInner (first :: inner ++ [last]) = first :: inner.filter (fun piece => !piece.isEmpty) ++ [last] := by
  obtain ⟨second, more, split⟩ := List.exists_cons_of_ne_nil
    (List.append_ne_nil_of_right_ne_nil inner (List.cons_ne_nil last []))
  have step : dropEmptyInner (first :: second :: more) =
      first :: (second :: more).dropLast.filter (fun piece => !piece.isEmpty) ++
        [(second :: more).getLastD []] := rfl
  rw [List.cons_append, split, step, ← split, List.dropLast_concat, List.getLastD_concat]

end Regen.Text
