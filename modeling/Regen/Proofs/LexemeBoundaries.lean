import Regen.Header.Lexeme
import Regen.Proofs.Advance
import Regen.Proofs.Cuts

/-! Where lexemes end. A run of blanks ends before a character that is none, and
every other lexeme ends in a character that is none, so no boundary between
lexemes cuts a line break in two. -/
namespace Regen.Header
open Position

/-- The first `width` characters hold no blank and no comma. -/
def Solid (width : Nat) (text : Text) : Prop :=
  ∀ c ∈ text.take width, isSeparator c = false

theorem Solid.add {width more : Nat} {text : Text} (first : Solid width text)
    (second : Solid more (text.drop width)) : Solid (width + more) text := by
  intro c member
  rw [List.take_add, List.mem_append] at member
  exact member.elim (first c) (second c)

theorem solid_one {c : Char} {rest : Text} (solid : isSeparator c = false) : Solid 1 (c :: rest) := by
  simpa [Solid] using solid

theorem solid_takeWhile {p : Char → Bool} (text : Text)
    (solid : ∀ c, p c = true → isSeparator c = false) :
    Solid (text.takeWhile p).length text := by
  intro c member
  rw [← List.prefix_iff_eq_take.mp (List.takeWhile_prefix p)] at member
  exact solid c (List.all_eq_true.mp List.all_takeWhile c member)

theorem not_separator_of_ascii {c : Char} (low : 48 ≤ c.toNat) (high : c.toNat ≤ 126) :
    isSeparator c = false := by
  have notComma : c ≠ ',' := by
    rintro rfl
    exact absurd low (by decide)
  simp only [isSeparator, Text.isBlank, Bool.or_eq_false_iff, Bool.and_eq_false_iff,
    decide_eq_false_iff_not, beq_eq_false_iff_ne, ne_eq, notComma, not_false_eq_true, and_true]
  omega

theorem not_separator_of_isAsciiDigit {c : Char} (digit : Text.isAsciiDigit c = true) :
    isSeparator c = false := by
  simp only [Text.isAsciiDigit, Bool.and_eq_true, decide_eq_true_eq] at digit
  have low : 48 ≤ c.toNat := digit.1
  have high : c.toNat ≤ 57 := digit.2
  exact not_separator_of_ascii low (by omega)

theorem not_separator_of_isNameStart {c : Char} (named : isNameStart c = true) :
    isSeparator c = false := by
  simp only [isNameStart, Bool.or_eq_true, Bool.and_eq_true, decide_eq_true_eq, beq_iff_eq] at named
  rcases named with (lower | upper) | rfl
  · have low : 97 ≤ c.toNat := lower.1
    have high : c.toNat ≤ 122 := lower.2
    exact not_separator_of_ascii (by omega) (by omega)
  · have low : 65 ≤ c.toNat := upper.1
    have high : c.toNat ≤ 90 := upper.2
    exact not_separator_of_ascii (by omega) (by omega)
  · decide

theorem not_separator_of_isNameChar {c : Char} (named : isNameChar c = true) :
    isSeparator c = false := by
  rcases Bool.or_eq_true_iff.mp named with first | digit
  · exact not_separator_of_isNameStart first
  · exact not_separator_of_isAsciiDigit digit

theorem solid_digits (text : Text) : Solid (digitsWidth text) text :=
  solid_takeWhile text fun _ => not_separator_of_isAsciiDigit

theorem solid_signed (text : Text) : Solid (signedWidth text) text := by
  fun_cases signedWidth text with
  | case1 => simp [Solid]
  | case2 digits =>
    rw [Nat.add_comm]
    exact (solid_one (by decide)).add (solid_digits digits)
  | case3 => simp [Solid]
  | case4 digits =>
    rw [Nat.add_comm]
    exact (solid_one (by decide)).add (solid_digits digits)
  | case5 => exact solid_digits text

theorem solid_exponent (text : Text) : Solid (exponentWidth text) text := by
  fun_cases exponentWidth text with
  | case1 => simp [Solid]
  | case2 c rest written =>
    have letter : isSeparator c = false := by
      simp only [Bool.and_eq_true, Bool.or_eq_true, beq_iff_eq] at written
      rcases written.1 with rfl | rfl <;> decide
    rw [Nat.add_comm]
    exact (solid_one letter).add (solid_signed rest)
  | case3 => simp [Solid]

theorem solid_number (rest : Text) : Solid (scanNumber rest).2 rest := by
  unfold scanNumber
  dsimp only
  split
  · rename_i more point
    split
    · exact solid_digits rest
    · refine (((solid_digits rest).add ?_).add ?_).add ?_
      · exact point ▸ solid_one (by decide)
      · rw [← List.drop_drop, point]
        exact solid_digits more
      · rw [← List.drop_drop, ← List.drop_drop, point]
        exact solid_exponent _
  · exact solid_digits rest

/-- A quoted lexeme ends in its quotation mark. -/
theorem last_of_quotedWidth {mark : Char} {text : Text} {width : Nat}
    (found : quotedWidth mark text = some width) : (text.take width).getLast? = some mark := by
  fun_induction quotedWidth mark text generalizing width with
  | case1 => cases found
  | case2 c rest ih =>
    obtain ⟨inner, inside, rfl⟩ := Option.map_eq_some_iff.mp found
    simp [List.getLast?_cons, ih inside]
  | case3 c rest =>
    cases found
    rfl
  | case4 => cases found
  | case5 c rest _ _ _ ih =>
    obtain ⟨inner, inside, rfl⟩ := Option.map_eq_some_iff.mp found
    simp [List.getLast?_cons, ih inside]

theorem seam_of_solid {c : Char} {width : Nat} {rest after : Text} (first : isSeparator c = false)
    (solid : Solid width rest) : Seam (c :: rest.take width) after := by
  rintro ⟨last, -⟩
  have member : '\r' ∈ c :: rest.take width := List.mem_of_getLast? last
  have separator : isSeparator '\r' = true := by decide
  rcases List.mem_cons.mp member with rfl | member
  · simp [separator] at first
  · simp [solid _ member] at separator

theorem seam_of_quoted {c mark : Char} {width : Nat} {rest after : Text} (other : mark ≠ '\r')
    (found : quotedWidth mark rest = some width) : Seam (c :: rest.take width) after := by
  apply seam_of_last _ other
  simp [List.getLast?_cons, last_of_quotedWidth found]

theorem seam_of_separators (c : Char) (rest : Text) :
    Seam (c :: rest.take (rest.takeWhile isSeparator).length)
      (rest.drop (rest.takeWhile isSeparator).length) := by
  rintro ⟨-, next⟩
  have stops := List.head?_dropWhile_not isSeparator rest
  rw [← Text.drop_length_takeWhile, next] at stops
  exact absurd stops (by decide)

/-- No line break goes across the end of a lexeme. -/
theorem seam_of_scanLexeme (c : Char) (rest : Text) :
    Seam (c :: rest.take (scanLexeme c rest).2) (rest.drop (scanLexeme c rest).2) := by
  unfold scanLexeme
  split
  · exact seam_of_separators c rest
  rename_i first
  have first : isSeparator c = false := by simpa using first
  have notReturn : c ≠ '\r' := by
    rintro rfl
    exact absurd first (by decide)
  have single (kind : LexemeKind) : Seam (c :: rest.take (kind, 0).2) (rest.drop (kind, 0).2) :=
    seam_of_solid first (by simp [Solid])
  have named (text : Text) : Solid (text.takeWhile isNameChar).length text :=
    solid_takeWhile text fun _ => not_separator_of_isNameChar
  split
  · exact seam_of_solid first (solid_number rest)
  split
  · split
    · rename_i found
      exact seam_of_quoted notReturn found
    · exact single _
  split
  · split
    · rename_i found
      exact seam_of_quoted notReturn found
    · exact single _
  split
  · dsimp only
    split <;> exact seam_of_solid first (named rest)
  split
  · split
    · rename_i start more
      split
      · rename_i startsName
        refine seam_of_solid first ?_
        rw [Nat.add_comm]
        exact (solid_one (not_separator_of_isNameStart startsName)).add (named more)
      · exact single _
    · exact single _
  split
  · exact single _
  split
  · exact single _
  · exact single _

end Regen.Header
