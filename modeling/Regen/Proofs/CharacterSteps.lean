import Regen.Proofs.Advance

/-! Positions one character at a time. Advancing looks ahead for line breaks of two
characters, yet it comes to the place that the two lead to in turn, as a line feed
leads to the first column whatever column the carriage return led to. So it is a
fold over characters, and the laws of positions are those of a single step. -/
namespace Regen

namespace Text

/-- A character that occurs in a text has a last place there. -/
theorem exists_last_of_mem {c : Char} {text : Text} (member : c ∈ text) :
    ∃ before last, text = before ++ c :: last ∧ c ∉ last := by
  obtain ⟨last, before, reversed, clear⟩ := List.eq_append_cons_of_mem (List.mem_reverse.mpr member)
  refine ⟨before.reverse, last.reverse, ?_, by simpa using clear⟩
  rw [← List.reverse_reverse text, reversed]
  simp

end Text

namespace Position

/-- The position after one character. -/
def pass (p : Position) (c : Char) : Position :=
  if c = '\n' then ⟨p.line + 1, 1⟩ else p.right 1

theorem advance_eq_foldl (p : Position) (text : Text) : p.advance text = text.foldl pass p := by
  fun_induction advance p text with
  | case1 p => rfl
  | case2 p rest ih =>
    -- The carriage return only moves the column, which the line feed sets back.
    simpa [pass, right] using ih
  | case3 p rest notPair ih => simpa [pass] using ih
  | case4 p c rest notPair other ih => simpa [pass, right, other] using ih

/-- Behind a line feed the column is told by the characters after it alone. -/
theorem advance_lastLine (p : Position) (before : Text) {last : Text} (level : '\n' ∉ last) :
    p.advance (before ++ '\n' :: last) = ⟨(p.advance before).line + 1, 1 + last.length⟩ := by
  calc p.advance (before ++ '\n' :: last)
      = last.foldl pass ((p.advance before).pass '\n') := by
        rw [advance_eq_foldl, List.foldl_append, List.foldl_cons, advance_eq_foldl]
    _ = advance ⟨(p.advance before).line + 1, 1⟩ last := (advance_eq_foldl _ last).symm
    _ = ⟨(p.advance before).line + 1, 1 + last.length⟩ := advance_of_noLineFeed _ last level

/-- Advancing over a text is advancing over its pieces in turn, wherever it is cut, inside
a line break too. The line grows by the line feeds passed; the column grows by the
characters passed where there is no line feed, and else counts from one those after the
last; and every text that is not empty leads to a later position. -/
theorem advance_laws (p : Position) :
    (∀ left right, p.advance (left ++ right) = (p.advance left).advance right) ∧
    ∀ text, (p.advance text).line = p.line + Text.lineFeeds text ∧
      ('\n' ∉ text → (p.advance text).col = p.col + text.length) ∧
      ('\n' ∈ text → ∃ before last, text = before ++ '\n' :: last ∧ '\n' ∉ last ∧
        (p.advance text).col = 1 + last.length) ∧
      (text ≠ [] → p.Before (p.advance text)) := by
  refine ⟨fun left right => ?_, fun text => ⟨line_advance p text, ?_, ?_, before_advance p text⟩⟩
  · rw [advance_eq_foldl, List.foldl_append, ← advance_eq_foldl, ← advance_eq_foldl]
  · intro level
    rw [advance_of_noLineFeed p text level]
    rfl
  · intro broken
    obtain ⟨before, last, rfl, level⟩ := Text.exists_last_of_mem broken
    refine ⟨before, last, rfl, level, ?_⟩
    rw [advance_lastLine p before level]

/-- A line up to the carriage return that breaks it. -/
def upToReturn : Text := "ab\r".toList

/-- The line feed of that break and the line after it. -/
def fromFeed : Text := "\ncd".toList

/-- A line break cut in two is passed like a whole one. -/
theorem advance_laws_cutBreak :
    ('\n' ∉ upToReturn ∧ '\n' ∈ fromFeed ∧ upToReturn ++ fromFeed ≠ []) ∧
    start.advance (upToReturn ++ fromFeed) = (start.advance upToReturn).advance fromFeed ∧
    (start.advance upToReturn).col = 4 ∧ (start.advance (upToReturn ++ fromFeed)).line = 2 ∧
    (∃ before last, fromFeed = before ++ '\n' :: last ∧ '\n' ∉ last ∧
      ((start.advance upToReturn).advance fromFeed).col = 1 + last.length) ∧
    start.Before (start.advance (upToReturn ++ fromFeed)) := by
  have level : '\n' ∉ upToReturn := by decide
  have broken : '\n' ∈ fromFeed := by decide
  have filled : upToReturn ++ fromFeed ≠ [] := by decide
  obtain ⟨pieces, passed⟩ := advance_laws start
  obtain ⟨lines, -, -, later⟩ := passed (upToReturn ++ fromFeed)
  obtain ⟨-, columns, -, -⟩ := passed upToReturn
  obtain ⟨-, -, lastLine, -⟩ := (advance_laws (start.advance upToReturn)).2 fromFeed
  exact ⟨⟨level, broken, filled⟩, pieces upToReturn fromFeed, columns level, lines, lastLine broken,
    later filled⟩

end Position
end Regen
