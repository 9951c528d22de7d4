import Regen.Position

/-! Advancing over a text is advancing over its pieces in turn, as long as no
piece ends between the two characters of one line break. Every position a
document reports is compared with the one reached from its beginning, so this
is the only law of positions that the scan and the lexer need. -/
namespace Regen.Position

/-- The boundary between two texts does not cut a line break in two. -/
def Seam (left right : Text) : Prop :=
  ¬(left.getLast? = some '\r' ∧ right.head? = some '\n')

theorem seam_of_head {left right : Text} {c : Char} (first : right.head? = some c)
    (other : c ≠ '\n') : Seam left right := by
  intro cut
  rw [first] at cut
  exact other (Option.some.inj cut.2)

theorem seam_of_last {left right : Text} {c : Char} (last : left.getLast? = some c)
    (other : c ≠ '\r') : Seam left right := by
  intro cut
  rw [last] at cut
  exact other (Option.some.inj cut.1)

/-- A character that does not begin a line break of two is passed on its own. -/
theorem advance_cons (p : Position) {c : Char} {rest : Text}
    (single : ∀ more, c = '\r' → rest = '\n' :: more → False) :
    p.advance (c :: rest) =
      if c = '\n' then advance ⟨p.line + 1, 1⟩ rest else advance ⟨p.line, p.col + 1⟩ rest := by
  rw [advance]
  exact single

theorem advance_append (p : Position) (left right : Text) (seam : Seam left right) :
    p.advance (left ++ right) = (p.advance left).advance right := by
  fun_induction advance p left with
  | case1 p => rfl
  | case2 p rest ih =>
    have inner : Seam rest right := by
      rintro ⟨last, first⟩
      exact seam ⟨by simp [List.getLast?_cons, last], first⟩
    simpa [advance] using ih inner
  | case3 p rest notPair ih =>
    have inner : Seam rest right := by
      rintro ⟨last, first⟩
      exact seam ⟨by simp [List.getLast?_cons, last], first⟩
    simpa [advance] using ih inner
  | case4 p c rest notPair other ih =>
    have inner : Seam rest right := by
      rintro ⟨last, first⟩
      exact seam ⟨by simp [List.getLast?_cons, last], first⟩
    have single : ∀ more, c = '\r' → rest ++ right = '\n' :: more → False := by
      rintro more rfl joined
      cases rest with
      | nil => exact seam ⟨rfl, by simpa using congrArg List.head? joined⟩
      | cons d rest => exact notPair rest rfl (by simp_all)
    rw [List.cons_append, advance_cons p single, if_neg other]
    exact ih inner

/-- In a text without line feeds only the column moves. -/
theorem advance_of_noLineFeed (p : Position) (text : Text) (level : '\n' ∉ text) :
    p.advance text = p.right text.length := by
  induction text generalizing p with
  | nil => simp [advance, right]
  | cons c rest ih =>
    simp only [List.mem_cons, not_or] at level
    have single : ∀ more, c = '\r' → rest = '\n' :: more → False := by
      rintro more - rfl
      simp at level
    rw [advance_cons p single, if_neg (Ne.symm level.1), ih _ level.2]
    simp only [right, List.length_cons, Position.mk.injEq, true_and]
    omega

/-- The lines passed are the line feeds passed. -/
theorem line_advance (p : Position) (text : Text) : (p.advance text).line = p.line + Text.lineFeeds text := by
  fun_induction advance p text with
  | case1 p => simp [Text.lineFeeds]
  | case2 p rest ih =>
    rw [ih]
    simp only [Text.lineFeeds, List.count_cons]
    simp
    omega
  | case3 p rest notPair ih =>
    rw [ih]
    simp only [Text.lineFeeds, List.count_cons]
    simp
    omega
  | case4 p c rest notPair other ih =>
    rw [ih]
    simp only [Text.lineFeeds, List.count_cons]
    simp [other]

/-- The order in which positions are met when a document is read. -/
def Before (p q : Position) : Prop :=
  p.line < q.line ∨ (p.line = q.line ∧ p.col < q.col)

theorem Before.trans {p q r : Position} (first : p.Before q) (second : q.Before r) : p.Before r := by
  unfold Before at *
  omega

theorem Before.irrefl (p : Position) : ¬p.Before p := by
  unfold Before
  omega

theorem before_nextLine (p : Position) : p.Before ⟨p.line + 1, 1⟩ :=
  Or.inl (Int.lt_succ p.line)

theorem before_nextColumn (p : Position) : p.Before ⟨p.line, p.col + 1⟩ :=
  Or.inr ⟨rfl, Int.lt_succ p.col⟩

/-- Every character leads to a later position. -/
theorem before_advance (p : Position) (text : Text) (filled : text ≠ []) :
    p.Before (p.advance text) := by
  fun_induction advance p text with
  | case1 p => exact absurd rfl filled
  | case2 p rest ih =>
    by_cases empty : rest = []
    · simpa [empty, advance] using before_nextLine p
    · exact (before_nextLine p).trans (ih empty)
  | case3 p rest notPair ih =>
    by_cases empty : rest = []
    · simpa [empty, advance] using before_nextLine p
    · exact (before_nextLine p).trans (ih empty)
  | case4 p c rest notPair other ih =>
    by_cases empty : rest = []
    · simpa [empty, advance] using before_nextColumn p
    · exact (before_nextColumn p).trans (ih empty)

/-- At `p` or after it. -/
def NotAfter (p q : Position) : Prop := p = q ∨ p.Before q

theorem notAfter_advance (p : Position) (text : Text) : p.NotAfter (p.advance text) := by
  by_cases empty : text = []
  · exact Or.inl (by rw [empty, advance])
  · exact Or.inr (before_advance p text empty)

theorem NotAfter.before {p q r : Position} (first : p.NotAfter q) (second : q.Before r) : p.Before r := by
  rcases first with rfl | first
  · exact second
  · exact first.trans second

theorem Before.notAfter {p q r : Position} (first : p.Before q) (second : q.NotAfter r) : p.Before r := by
  rcases second with rfl | second
  · exact first
  · exact first.trans second

theorem before_right (p : Position) {columns : Nat} (some : 0 < columns) : p.Before (p.right columns) := by
  refine Or.inr ⟨rfl, ?_⟩
  simp only [right]
  omega

end Regen.Position
