import Regen.Proofs.HeaderPrinting
import Regen.Proofs.LexemeRules

/-! What a lexeme owes to the text after it. A lexeme is found in front of a text
exactly when it is found alone and the text does not continue it, and whether it
does is seen from three characters at most. -/
namespace Regen.Header

/-- A letter that begins an exponent. -/
def isExponentMark (c : Char) : Bool := c == 'e' || c == 'E'

/-- A text does not continue a lexeme in front of it. -/
def Lexeme.Ends (lexeme : Lexeme) (rest : Text) : Prop :=
  match lexeme.kind with
  | .blank => ∀ c ∈ rest.head?, isSeparator c = false
  | .integer => (∀ c ∈ rest.head?, Text.isAsciiDigit c = false) ∧
      ∀ more, rest = '.' :: more → digitsWidth more = 0
  | .float => (∀ c ∈ rest.head?, Text.isAsciiDigit c = false) ∧
      (lexeme.text.any isExponentMark = false → exponentWidth rest = 0)
  | .constant => ∀ c ∈ rest.head?, isNameChar c = false
  | .variable => ∀ c ∈ rest.head?, isNameChar c = false
  | .name => ∀ c ∈ rest.head?, isNameChar c = false
  | _ => True

/-- What can stand between two quotation marks: pairs of a backslash and any
character, and characters other than these two. -/
inductive Enclosed (mark : Char) : Text → Prop
  | nil : Enclosed mark []
  | pair {rest : Text} (c : Char) : Enclosed mark rest → Enclosed mark ('\\' :: c :: rest)
  | plain {c : Char} {rest : Text} : c ≠ mark → c ≠ '\\' → Enclosed mark rest →
    Enclosed mark (c :: rest)

section Runs
variable {p : Char → Bool} {run rest : Text} {c mark : Char}

/-- A run is found in front of a text when it is one and the text does not go on with it. -/
theorem length_takeWhile_append_iff : ((run ++ rest).takeWhile p).length = run.length ↔
    run.all p = true ∧ ∀ c ∈ rest.head?, p c = false := by
  induction run with
  | nil =>
    cases rest with
    | nil => simp
    | cons c rest => by_cases fits : p c <;> simp [fits]
  | cons c run ih => by_cases fits : p c <;> simp [fits, ih]

theorem length_takeWhile_iff : (run.takeWhile p).length = run.length ↔ run.all p = true := by
  have found : ((run ++ []).takeWhile p).length = run.length ↔ _ := length_takeWhile_append_iff
  simpa using found

theorem digitsWidth_append_iff : digitsWidth (run ++ rest) = run.length ↔
    run.all Text.isAsciiDigit = true ∧ ∀ c ∈ rest.head?, Text.isAsciiDigit c = false :=
  length_takeWhile_append_iff

theorem digitsWidth_eq_zero_iff :
    digitsWidth rest = 0 ↔ ∀ c ∈ rest.head?, Text.isAsciiDigit c = false := by
  have found : digitsWidth ([] ++ rest) = ([] : Text).length ↔ _ := digitsWidth_append_iff
  simpa using found

theorem digitsWidth_le (text : Text) : digitsWidth text ≤ text.length :=
  (List.takeWhile_sublist _).length_le

theorem signedWidth_sign (sign : c = '+' ∨ c = '-') (digits : Text) : signedWidth (c :: digits) =
    if digitsWidth digits = 0 then 0 else digitsWidth digits + 1 := by
  rcases sign with rfl | rfl <;> rfl

theorem signedWidth_unsigned (unsigned : ¬(c = '+' ∨ c = '-')) (digits : Text) :
    signedWidth (c :: digits) = digitsWidth (c :: digits) := by
  unfold signedWidth
  split
  · rename_i same
    cases same
    exact absurd (.inl rfl) unsigned
  · rename_i same
    cases same
    exact absurd (.inr rfl) unsigned
  · rfl

/-- A mark counts only with what it introduces. -/
theorem introduced_iff {inner width : Nat} :
    (if inner = 0 then 0 else inner + 1) = width + 1 ↔ inner = width ∧ width ≠ 0 := by
  split <;> omega

theorem signedWidth_append_iff (filled : run ≠ []) : signedWidth (run ++ rest) = run.length ↔
    signedWidth run = run.length ∧ ∀ c ∈ rest.head?, Text.isAsciiDigit c = false := by
  cases run with
  | nil => exact absurd rfl filled
  | cons c digits =>
    have alone (run : Text) : digitsWidth run = run.length ↔ run.all Text.isAsciiDigit = true :=
      length_takeWhile_iff
    by_cases sign : c = '+' ∨ c = '-'
    · rw [List.cons_append, signedWidth_sign sign, signedWidth_sign sign, List.length_cons,
        introduced_iff, introduced_iff, digitsWidth_append_iff, alone]
      simp [and_right_comm]
    · rw [List.cons_append, signedWidth_unsigned sign, signedWidth_unsigned sign, ← List.cons_append,
        digitsWidth_append_iff, alone]

theorem exponentWidth_mark (letter : isExponentMark c = true) (digits : Text) :
    exponentWidth (c :: digits) = if signedWidth digits = 0 then 0 else signedWidth digits + 1 := by
  rw [isExponentMark] at letter
  simp [exponentWidth, letter]

theorem exponentWidth_other (other : isExponentMark c = false) (digits : Text) :
    exponentWidth (c :: digits) = 0 := by
  rw [isExponentMark] at other
  simp [exponentWidth, other]

theorem exponentWidth_append_iff (filled : run ≠ []) : exponentWidth (run ++ rest) = run.length ↔
    exponentWidth run = run.length ∧ ∀ c ∈ rest.head?, Text.isAsciiDigit c = false := by
  cases run with
  | nil => exact absurd rfl filled
  | cons c signed =>
    cases letter : isExponentMark c with
    | true =>
      rw [List.cons_append, exponentWidth_mark letter, exponentWidth_mark letter, List.length_cons,
        introduced_iff, introduced_iff, and_right_comm]
      refine and_congr_left fun some => signedWidth_append_iff ?_
      rintro rfl
      exact some rfl
    | false =>
      rw [List.cons_append, exponentWidth_other letter, exponentWidth_other letter]
      simp

theorem quotedWidth_of_enclosed {body : Text} (enclosed : Enclosed mark body) (other : mark ≠ '\\')
    (after : Text) : quotedWidth mark (body ++ mark :: after) = some (body.length + 1) := by
  induction enclosed with
  | nil => cases after <;> simp [quotedWidth, other]
  | pair c _ ih => simp [quotedWidth, ih]
  | plain notMark notEscape _ ih =>
    rw [List.cons_append, quotedWidth]
    · simp [notMark, notEscape, ih]
    · exact fun _ _ same => absurd same notEscape

theorem enclosed_of_quotedWidth {text : Text} {width : Nat} (found : quotedWidth mark text = some width) :
    ∃ body after, text = body ++ mark :: after ∧ Enclosed mark body ∧ width = body.length + 1 := by
  fun_induction quotedWidth mark text generalizing width with
  | case1 => cases found
  | case2 c rest ih =>
    obtain ⟨inner, inside, rfl⟩ := Option.map_eq_some_iff.mp found
    obtain ⟨body, after, rfl, enclosed, rfl⟩ := ih inside
    exact ⟨'\\' :: c :: body, after, rfl, .pair c enclosed, rfl⟩
  | case3 rest =>
    cases found
    exact ⟨[], rest, rfl, .nil, rfl⟩
  | case4 => cases found
  | case5 c rest _ notMark notEscape ih =>
    obtain ⟨inner, inside, rfl⟩ := Option.map_eq_some_iff.mp found
    obtain ⟨body, after, rfl, enclosed, rfl⟩ := ih inside
    exact ⟨c :: body, after, rfl, .plain notMark notEscape enclosed, rfl⟩

theorem quotedWidth_append_iff (other : mark ≠ '\\') :
    quotedWidth mark (run ++ rest) = some run.length ↔ quotedWidth mark run = some run.length := by
  constructor
  · intro found
    obtain ⟨body, after, split, enclosed, width⟩ := enclosed_of_quotedWidth found
    have closed : (body ++ [mark]).length = run.length := by simp [width]
    rw [← List.singleton_append, ← List.append_assoc] at split
    rw [(List.append_inj split closed.symm).1, quotedWidth_of_enclosed enclosed other []]
    simp
  · intro found
    obtain ⟨body, after, rfl, enclosed, width⟩ := enclosed_of_quotedWidth found
    rw [List.append_assoc, List.cons_append, quotedWidth_of_enclosed enclosed other, width]

end Runs

/-- What follows the first digit of a float, the last part of which is its exponent. -/
inductive Fractional : Text → Text → Prop
  | intro {whole fraction exponent : Text} : whole.all Text.isAsciiDigit = true →
    fraction.all Text.isAsciiDigit = true → fraction ≠ [] →
    exponentWidth exponent = exponent.length →
    Fractional (whole ++ '.' :: (fraction ++ exponent)) exponent

section Numbers
variable {run rest exponent : Text}

theorem signedWidth_le (text : Text) : signedWidth text ≤ text.length := by
  fun_cases signedWidth text with
  | case1 => exact Nat.zero_le _
  | case2 digits => exact Nat.succ_le_succ (digitsWidth_le digits)
  | case3 => exact Nat.zero_le _
  | case4 digits => exact Nat.succ_le_succ (digitsWidth_le digits)
  | case5 => exact digitsWidth_le text

theorem exponentWidth_le (text : Text) : exponentWidth text ≤ text.length := by
  fun_cases exponentWidth text with
  | case1 => exact Nat.zero_le _
  | case2 c rest => exact Nat.succ_le_succ (signedWidth_le rest)
  | case3 => exact Nat.zero_le _

/-- An exponent is empty or begins with its mark. -/
theorem exponent_cases (whole : exponentWidth exponent = exponent.length) :
    exponent = [] ∨ ∃ c more, exponent = c :: more ∧ isExponentMark c = true := by
  cases exponent with
  | nil => exact .inl rfl
  | cons c more =>
    cases mark : isExponentMark c with
    | true => exact .inr ⟨c, more, rfl, mark⟩
    | false => simp [exponentWidth_other mark] at whole

theorem not_digit_of_mark {c : Char} (mark : isExponentMark c = true) :
    Text.isAsciiDigit c = false := by
  simp only [isExponentMark, Bool.or_eq_true, beq_iff_eq] at mark
  rcases mark with rfl | rfl <;> decide

theorem scanNumber_integer_iff : scanNumber (run ++ rest) = (.integer, run.length) ↔
    run.all Text.isAsciiDigit = true ∧ (∀ c ∈ rest.head?, Text.isAsciiDigit c = false) ∧
      ∀ more, rest = '.' :: more → digitsWidth more = 0 := by
  rw [← and_assoc, ← digitsWidth_append_iff]
  constructor
  · intro found
    rcases scanNumber_cases (run ++ rest) with float | integer
    · simp [found] at float
    · rw [integer] at found
      have width : digitsWidth (run ++ rest) = run.length := congrArg Prod.snd found
      refine ⟨width, ?_⟩
      rintro more rfl
      have point : (run ++ '.' :: more).drop (digitsWidth (run ++ '.' :: more)) = '.' :: more := by
        rw [width, List.drop_left]
      rw [scanNumber_of_point point] at integer
      split at integer
      · assumption
      · cases integer
  · rintro ⟨width, whole⟩
    have after : (run ++ rest).drop (digitsWidth (run ++ rest)) = rest := by rw [width, List.drop_left]
    rw [← width]
    by_cases point : ∃ more, rest = '.' :: more
    · obtain ⟨more, rfl⟩ := point
      rw [scanNumber_of_point after, if_pos (whole more rfl)]
    · exact scanNumber_of_noPoint (after.symm ▸ not_exists.mp point)

/-- Every text is digits and a text that does not go on with them. -/
theorem split_digits (text : Text) : ∃ digits after, text = digits ++ after ∧
    digits.all Text.isAsciiDigit = true ∧ (∀ c ∈ after.head?, Text.isAsciiDigit c = false) ∧
      digitsWidth text = digits.length := by
  obtain ⟨front, after, same, width⟩ : ∃ front after, text = front ++ after ∧
      digitsWidth text = front.length :=
    ⟨_, _, (List.take_append_drop (digitsWidth text) text).symm,
      (List.length_take_of_le (digitsWidth_le text)).symm⟩
  obtain ⟨digits, stops⟩ := digitsWidth_append_iff.mp (same ▸ width)
  exact ⟨front, after, same, digits, stops, width⟩

theorem split_exponent (text : Text) : ∃ exponent after, text = exponent ++ after ∧
    exponentWidth text = exponent.length :=
  ⟨_, _, (List.take_append_drop (exponentWidth text) text).symm,
    (List.length_take_of_le (exponentWidth_le text)).symm⟩

theorem fractional_of_scanNumber (found : scanNumber (run ++ rest) = (.float, run.length)) :
    ∃ exponent, Fractional run exponent ∧ (∀ c ∈ rest.head?, Text.isAsciiDigit c = false) ∧
      (exponent = [] → exponentWidth rest = 0) := by
  obtain ⟨whole, point, split, wholeDigits, -, wholeWidth⟩ := split_digits (run ++ rest)
  have after : (run ++ rest).drop (digitsWidth (run ++ rest)) = point := by
    rw [wholeWidth, split, List.drop_left]
  by_cases pointed : ∃ more, point = '.' :: more
  case neg =>
    rw [scanNumber_of_noPoint (after.symm ▸ not_exists.mp pointed)] at found
    cases found
  obtain ⟨more, rfl⟩ := pointed
  obtain ⟨fraction, tail, rfl, fractionDigits, stops, fractionWidth⟩ := split_digits more
  obtain ⟨exponent, after', rfl, exponentWidth'⟩ := split_exponent tail
  rw [scanNumber_of_point after, wholeWidth, fractionWidth, List.drop_left, exponentWidth'] at found
  split at found
  · cases found
  rename_i some
  have width : whole.length + 1 + fraction.length + exponent.length = run.length :=
    congrArg Prod.snd found
  have same : run ++ rest = (whole ++ '.' :: (fraction ++ exponent)) ++ after' := by simp [split]
  have size : run.length = (whole ++ '.' :: (fraction ++ exponent)).length := by
    simp only [List.length_append, List.length_cons]
    omega
  obtain ⟨rfl, rfl⟩ := List.append_inj same size
  have filled : fraction ≠ [] := by
    rintro rfl
    exact some rfl
  -- An exponent that is not there leaves the rest to be looked at twice.
  by_cases none : exponent = []
  · subst none
    exact ⟨[], .intro wholeDigits fractionDigits filled rfl, by simpa using stops,
      fun _ => by simpa using exponentWidth'⟩
  · obtain ⟨alone, stops⟩ := (exponentWidth_append_iff none).mp exponentWidth'
    exact ⟨exponent, .intro wholeDigits fractionDigits filled alone, stops,
      fun empty => absurd empty none⟩

theorem scanNumber_of_fractional (fractional : Fractional run exponent)
    (stops : ∀ c ∈ rest.head?, Text.isAsciiDigit c = false)
    (bare : exponent = [] → exponentWidth rest = 0) :
    scanNumber (run ++ rest) = (.float, run.length) := by
  cases fractional with
  | @intro whole fraction exponent wholeDigits fractionDigits filled alone =>
  have extends' : exponentWidth (exponent ++ rest) = exponent.length := by
    by_cases none : exponent = []
    · simpa [none] using bare none
    · exact (exponentWidth_append_iff none).mpr ⟨alone, stops⟩
  have fractionStops : ∀ c ∈ (exponent ++ rest).head?, Text.isAsciiDigit c = false := by
    rcases exponent_cases alone with rfl | ⟨c, more, rfl, mark⟩
    · exact stops
    · rintro d ⟨⟩
      exact not_digit_of_mark mark
  have pointStops : ∀ c ∈ ('.' :: (fraction ++ (exponent ++ rest))).head?,
      Text.isAsciiDigit c = false := by
    rintro c ⟨⟩
    decide
  have wholeWidth := digitsWidth_append_iff.mpr ⟨wholeDigits, pointStops⟩
  have fractionWidth := digitsWidth_append_iff.mpr ⟨fractionDigits, fractionStops⟩
  have same : whole ++ '.' :: (fraction ++ exponent) ++ rest =
      whole ++ '.' :: (fraction ++ (exponent ++ rest)) := by simp
  rw [same, scanNumber_of_point (by rw [wholeWidth, List.drop_left]), wholeWidth, fractionWidth,
    List.drop_left, extends', if_neg (mt List.length_eq_zero_iff.mp filled)]
  simp
  omega

theorem scanNumber_float_iff : scanNumber (run ++ rest) = (.float, run.length) ↔
    ∃ exponent, Fractional run exponent ∧ (∀ c ∈ rest.head?, Text.isAsciiDigit c = false) ∧
      (exponent = [] → exponentWidth rest = 0) := by
  constructor
  · exact fractional_of_scanNumber
  · rintro ⟨exponent, fractional, stops, bare⟩
    exact scanNumber_of_fractional fractional stops bare

theorem noMark_of_digits (digits : run.all Text.isAsciiDigit = true) :
    run.any isExponentMark = false := by
  rw [List.any_eq_false]
  intro c member mark
  have digit := List.all_eq_true.mp digits c member
  simp [not_digit_of_mark mark] at digit

/-- A float has an exponent when there is a mark in it. -/
theorem Fractional.any_mark (fractional : Fractional run exponent) :
    run.any isExponentMark = false ↔ exponent = [] := by
  cases fractional with
  | @intro whole fraction exponent wholeDigits fractionDigits filled alone =>
  have point : isExponentMark '.' = false := by decide
  simp only [List.any_append, List.any_cons, noMark_of_digits wholeDigits,
    noMark_of_digits fractionDigits, point, Bool.false_or]
  rcases exponent_cases alone with rfl | ⟨c, more, rfl, mark⟩
  · simp
  · simp [mark]

theorem scanNumber_kind {kind : LexemeKind} {width : Nat} (found : scanNumber run = (kind, width)) :
    kind = .float ∨ kind = .integer := by
  rcases scanNumber_cases run with float | integer
  · exact .inl (by rw [← float, found])
  · exact .inr (congrArg Prod.fst (found.symm.trans integer))

theorem scanNumber_append_iff {c : Char} {kind : LexemeKind} (digit : Text.isAsciiDigit c = true) :
    scanNumber (run ++ rest) = (kind, run.length) ↔
      scanNumber run = (kind, run.length) ∧ Lexeme.Ends ⟨kind, c :: run⟩ rest := by
  have notMark : isExponentMark c = false := by
    cases mark : isExponentMark c with
    | true => exact absurd digit (by simp [not_digit_of_mark mark])
    | false => rfl
  have integer : scanNumber (run ++ []) = (.integer, run.length) ↔ _ := scanNumber_integer_iff
  have float : scanNumber (run ++ []) = (.float, run.length) ↔ _ := scanNumber_float_iff
  rw [List.append_nil] at integer float
  cases kind with
  | integer => simp [scanNumber_integer_iff, integer, Lexeme.Ends]
  | float =>
    rw [scanNumber_float_iff, float]
    constructor
    · rintro ⟨exponent, fractional, stops, bare⟩
      refine ⟨⟨exponent, fractional, by simp, fun _ => rfl⟩, stops, fun none => bare ?_⟩
      rw [List.any_cons, notMark, Bool.false_or] at none
      exact fractional.any_mark.mp none
    · rintro ⟨⟨exponent, fractional, -, -⟩, stops, bare⟩
      refine ⟨exponent, fractional, stops, fun none => bare ?_⟩
      rw [List.any_cons, notMark, Bool.false_or]
      exact fractional.any_mark.mpr none
  | _ =>
    refine iff_of_false (fun found => ?_) (fun found => ?_)
    · rcases scanNumber_kind found with same | same <;> cases same
    · rcases scanNumber_kind found.1 with same | same <;> cases same

end Numbers

section Lexemes
variable {kind : LexemeKind} {c : Char} {tail rest : Text}

theorem scanLexeme_separator (separator : isSeparator c = true) (rest : Text) :
    scanLexeme c rest = (.blank, (rest.takeWhile isSeparator).length) := by
  simp only [scanLexeme, separator, ↓reduceIte]

theorem scanLexeme_digit (digit : Text.isAsciiDigit c = true) (rest : Text) :
    scanLexeme c rest = scanNumber rest := by
  simp [scanLexeme, not_separator_of_isAsciiDigit digit, digit]

/-- The lexeme that a quotation mark begins. -/
theorem scanLexeme_mark (quotes : Quotes) (rest : Text) : scanLexeme quotes.mark rest =
    ((quotedWidth quotes.mark rest).map fun width => (quotes.kind, width)).getD (.illegal, 0) := by
  have separator : isSeparator quotes.mark = false := by cases quotes <;> decide
  have digit : Text.isAsciiDigit quotes.mark = false := by cases quotes <;> decide
  simp only [scanLexeme, separator, digit]
  cases quotes <;> cases found : quotedWidth _ rest <;> simp_all [Quotes.mark, Quotes.kind]

theorem scanLexeme_letter (begins : isNameStart c = true) (rest : Text) : scanLexeme c rest =
    (if c :: rest.takeWhile isNameChar = "true".toList ∨
        c :: rest.takeWhile isNameChar = "false".toList then .constant else .name,
      (rest.takeWhile isNameChar).length) := by
  have notDouble : c ≠ '\x22' := by
    rintro rfl
    exact absurd begins (by decide)
  have notSingle : c ≠ '\x27' := by
    rintro rfl
    exact absurd begins (by decide)
  simp only [scanLexeme, not_separator_of_isNameStart begins, not_digit_of_isNameStart begins, begins,
    beq_iff_eq, notDouble, notSingle, Bool.or_eq_true, decide_eq_true_eq, Bool.false_eq_true,
    ↓reduceIte]
  split <;> rfl

theorem scanLexeme_dollar (rest : Text) : scanLexeme '$' rest =
    if rest.head?.any isNameStart then
      (.variable, ((rest.drop 1).takeWhile isNameChar).length + 1) else (.illegal, 0) := by
  have separator : isSeparator '$' = false := by decide
  have digit : Text.isAsciiDigit '$' = false := by decide
  have letter : isNameStart '$' = false := by decide
  cases rest <;> simp [scanLexeme, separator, digit, letter]

/-- A character of no class of its own is a lexeme alone. -/
theorem scanLexeme_single (separator : isSeparator c = false) (digit : Text.isAsciiDigit c = false)
    (letter : isNameStart c = false) (notMark : ∀ quotes : Quotes, c ≠ quotes.mark)
    (notDollar : c ≠ '$') (rest : Text) : scanLexeme c rest =
      (if c = ':' then .colon else if c = '/' then .slash else .illegal, 0) := by
  have notDouble : c ≠ '\x22' := notMark .double
  have notSingle : c ≠ '\x27' := notMark .single
  simp only [scanLexeme, separator, digit, letter, beq_iff_eq, notDouble, notSingle, notDollar,
    Bool.false_eq_true, ↓reduceIte]
  split
  · rfl
  · split <;> rfl

/-- It is enough to say when a lexeme is found, and what of that is about the text
after it. -/
theorem alone_and_ends {shaped : Prop} {stops : Text → Prop} (nothing : stops [])
    (spec : ∀ rest, scanLexeme c (tail ++ rest) = (kind, tail.length) ↔ shaped ∧ stops rest)
    (ends : shaped → (stops rest ↔ Lexeme.Ends ⟨kind, c :: tail⟩ rest)) :
    scanLexeme c (tail ++ rest) = (kind, tail.length) ↔
      scanLexeme c tail = (kind, tail.length) ∧ Lexeme.Ends ⟨kind, c :: tail⟩ rest := by
  have alone := spec []
  rw [List.append_nil, and_iff_left nothing] at alone
  rw [spec rest, alone]
  exact and_congr_right ends

theorem scanLexeme_letter_iff (begins : isNameStart c = true) (rest : Text) :
    scanLexeme c (tail ++ rest) = (kind, tail.length) ↔
      (tail.all isNameChar = true ∧ kind = if c :: tail = "true".toList ∨ c :: tail = "false".toList
        then .constant else .name) ∧ ∀ d ∈ rest.head?, isNameChar d = false := by
  rw [scanLexeme_letter begins, Prod.mk.injEq, length_takeWhile_append_iff]
  constructor
  · rintro ⟨rfl, all, stops⟩
    rw [takeWhile_stops all stops]
    exact ⟨⟨all, rfl⟩, stops⟩
  · rintro ⟨⟨all, rfl⟩, stops⟩
    rw [takeWhile_stops all stops]
    exact ⟨rfl, all, stops⟩

theorem scanLexeme_dollar_iff (legal : kind ≠ .illegal) (rest : Text) :
    scanLexeme '$' (tail ++ rest) = (kind, tail.length) ↔
      ((∃ first more, tail = first :: more ∧ isNameStart first = true ∧ more.all isNameChar = true) ∧
        kind = .variable) ∧ ∀ d ∈ rest.head?, isNameChar d = false := by
  rw [scanLexeme_dollar]
  cases tail with
  | nil =>
    refine iff_of_false ?_ (by simp)
    split
    · simp
    · simp [legal.symm]
  | cons first more =>
    cases named : isNameStart first with
    | true =>
      simp only [List.cons_append, List.head?_cons, Option.any_some, named, ↓reduceIte, List.drop_one,
        List.tail_cons, Prod.mk.injEq, List.length_cons, Nat.add_right_cancel_iff,
        length_takeWhile_append_iff, List.cons.injEq]
      constructor
      · rintro ⟨rfl, all, stops⟩
        exact ⟨⟨⟨first, more, ⟨rfl, rfl⟩, named, all⟩, rfl⟩, stops⟩
      · rintro ⟨⟨⟨_, _, ⟨rfl, rfl⟩, -, all⟩, rfl⟩, stops⟩
        exact ⟨rfl, all, stops⟩
    | false =>
      refine iff_of_false ?_ ?_
      · simp [named, legal.symm]
      · rintro ⟨⟨⟨_, _, same, named', -⟩, -⟩, -⟩
        cases same
        simp [named] at named'

/-- A lexeme is found in front of a text when it is found alone and the text does
not continue it. -/
theorem scanLexeme_append_iff (legal : kind ≠ .illegal) :
    scanLexeme c (tail ++ rest) = (kind, tail.length) ↔
      scanLexeme c tail = (kind, tail.length) ∧ Lexeme.Ends ⟨kind, c :: tail⟩ rest := by
  cases separator : isSeparator c with
  | true =>
    have spec (rest : Text) : scanLexeme c (tail ++ rest) = (kind, tail.length) ↔
        (.blank = kind ∧ tail.all isSeparator = true) ∧ ∀ d ∈ rest.head?, isSeparator d = false := by
      rw [scanLexeme_separator separator, Prod.mk.injEq, length_takeWhile_append_iff, and_assoc]
    refine alone_and_ends (by simp) spec ?_
    rintro ⟨rfl, -⟩
    rfl
  | false =>
  cases digit : Text.isAsciiDigit c with
  | true =>
    rw [scanLexeme_digit digit, scanLexeme_digit digit]
    exact scanNumber_append_iff digit
  | false =>
  by_cases marked : ∃ quotes : Quotes, c = quotes.mark
  · obtain ⟨quotes, rfl⟩ := marked
    have spec (rest : Text) : scanLexeme quotes.mark (tail ++ rest) = (kind, tail.length) ↔
        (quotes.kind = kind ∧ quotedWidth quotes.mark tail = some tail.length) ∧ True := by
      rw [← quotedWidth_append_iff quotes.mark_ne, scanLexeme_mark]
      cases quotedWidth quotes.mark (tail ++ rest) with
      | none => simp [legal.symm]
      | some width => simp
    refine alone_and_ends trivial spec ?_
    rintro ⟨rfl, -⟩
    cases quotes <;> exact Iff.rfl
  cases letter : isNameStart c with
  | true =>
    refine alone_and_ends (by simp) (scanLexeme_letter_iff letter) ?_
    rintro ⟨-, rfl⟩
    split <;> exact Iff.rfl
  | false =>
  by_cases dollar : c = '$'
  · subst dollar
    refine alone_and_ends (by simp) (scanLexeme_dollar_iff legal) ?_
    rintro ⟨-, rfl⟩
    exact Iff.rfl
  · have spec (rest : Text) : scanLexeme c (tail ++ rest) = (kind, tail.length) ↔
        (kind = (if c = ':' then .colon else if c = '/' then .slash else .illegal) ∧ tail = []) ∧
          True := by
      rw [scanLexeme_single separator digit letter (not_exists.mp marked) dollar, Prod.mk.injEq,
        and_true, eq_comm, eq_comm (a := 0), List.length_eq_zero_iff]
    refine alone_and_ends trivial spec ?_
    rintro ⟨rfl, -⟩
    split
    · exact Iff.rfl
    · split <;> exact Iff.rfl

theorem scanNumber_le (rest : Text) : (scanNumber rest).2 ≤ rest.length := by
  have whole := digitsWidth_le rest
  by_cases pointed : ∃ more, rest.drop (digitsWidth rest) = '.' :: more
  case neg =>
    rw [scanNumber_of_noPoint (not_exists.mp pointed)]
    exact whole
  obtain ⟨more, point⟩ := pointed
  have after := congrArg List.length point
  have fraction := digitsWidth_le more
  have exponent := exponentWidth_le (more.drop (digitsWidth more))
  rw [List.length_drop, List.length_cons] at after
  rw [List.length_drop] at exponent
  rw [scanNumber_of_point point]
  split <;> dsimp only <;> omega

theorem quotedWidth_le {mark : Char} {text : Text} {width : Nat}
    (found : quotedWidth mark text = some width) : width ≤ text.length := by
  obtain ⟨body, after, rfl, -, rfl⟩ := enclosed_of_quotedWidth found
  simp

/-- A lexeme does not go beyond the text. -/
theorem scanLexeme_le (c : Char) (rest : Text) : (scanLexeme c rest).2 ≤ rest.length := by
  have run (p : Char → Bool) (text : Text) : (text.takeWhile p).length ≤ text.length :=
    (List.takeWhile_sublist p).length_le
  unfold scanLexeme
  split
  · exact run _ rest
  split
  · exact scanNumber_le rest
  split
  · split
    · rename_i found
      exact quotedWidth_le found
    · exact Nat.zero_le _
  split
  · split
    · rename_i found
      exact quotedWidth_le found
    · exact Nat.zero_le _
  split
  · dsimp only
    split <;> exact run _ rest
  split
  · split
    · split
      · exact Nat.succ_le_succ (run _ _)
      · exact Nat.zero_le _
    · exact Nat.zero_le _
  split
  · exact Nat.zero_le _
  split <;> exact Nat.zero_le _

end Lexemes

end Regen.Header
