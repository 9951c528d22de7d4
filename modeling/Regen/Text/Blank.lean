import Regen.Text.Cut

/-! Blank characters and line breaks. Both are classes of Unicode characters,
wider than their ASCII namesakes: the no-break space is blank, and a vertical
tab or a line separator ends a line. -/
namespace Regen.Text

/-- White space, the four information separators included. -/
def isBlank (c : Char) : Bool :=
  let code := c.toNat
  (9 ≤ code && code ≤ 13) || (28 ≤ code && code ≤ 32) || code == 0x85 || code == 0xA0 ||
    code == 0x1680 || (0x2000 ≤ code && code ≤ 0x200A) || code == 0x2028 || code == 0x2029 ||
    code == 0x202F || code == 0x205F || code == 0x3000

/-- A character that ends a line when lines are counted for display. -/
def isLineBreak (c : Char) : Bool :=
  let code := c.toNat
  (10 ≤ code && code ≤ 13) || (28 ≤ code && code ≤ 30) || code == 0x85 ||
    code == 0x2028 || code == 0x2029

/-- The text without the blanks at both ends. -/
def strip (text : Text) : Text :=
  trimEnd isBlank (text.dropWhile isBlank)

/-- The words between runs of blanks. -/
def words (text : Text) : List Text :=
  (splitWhere isBlank text).filter (· ≠ [])

/-- The lines of a text, each with the break that ends it; a carriage return
and the line feed after it are one break. -/
def lines : Text → List Text
  | [] => []
  | '\r' :: '\n' :: rest => ['\r', '\n'] :: lines rest
  | c :: rest =>
    if isLineBreak c then [c] :: lines rest
    else match lines rest with
      | [] => [[c]]
      | line :: more => (c :: line) :: more

/-- Lines are cut, never changed. -/
theorem flatten_lines (text : Text) : (lines text).flatten = text := by
  fun_induction lines text with
  | case1 => rfl
  | case2 rest ih => simp [ih]
  | case3 c rest _ _ ih => simp [ih]
  | case4 c rest _ _ none ih => simpa [none] using ih
  | case5 c rest _ _ line more some ih => simpa [some] using ih

/-- Every white-space character of ASCII is blank. -/
theorem isBlank_of_isWhitespace (c : Char) (white : c.isWhitespace = true) : isBlank c = true := by
  simp only [Char.isWhitespace, Bool.or_eq_true, decide_eq_true_eq] at white
  rcases white with ((rfl | rfl) | rfl) | rfl <;> decide

end Regen.Text
