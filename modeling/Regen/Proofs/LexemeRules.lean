import Regen.Proofs.LexemeBoundaries

/-! The rules for lexemes. A rule is a pattern of text and the kind of what it
matches; the first rule that matches at all decides, and a pattern matches what a
matcher finds first that tries longer repetitions before shorter ones and goes
back whenever it is stuck. The scan never goes back, and looks at each character
for one rule only. Both find the same lexemes. -/
namespace Regen.Header

/-- Patterns of text. `notBefore` takes nothing and is about what comes next. -/
inductive Pattern where
  | nothing
  | one (allowed : Char → Bool)
  | notBefore (refused : Char → Bool)
  | seq (first second : Pattern)
  | either (preferred other : Pattern)
  | many (repeated : Pattern)

/-- What is left of a text after the repetitions of a step, more of them first. A
step that takes nothing is not repeated. -/
def repeatedly (step : Text → List Text) (text : Text) : List Text :=
  (step text).flatMap (fun rest =>
    if rest.length < text.length then repeatedly step rest else []) ++ [text]
termination_by text.length

/-- What is left of a text after each match of a pattern, in the order in which
the matches are tried. -/
def Pattern.rests : Pattern → Text → List Text
  | .nothing, text => [text]
  | .one _, [] => []
  | .one allowed, c :: rest => if allowed c then [rest] else []
  | .notBefore refused, text => if text.head?.any refused then [] else [text]
  | .seq first second, text => (first.rests text).flatMap second.rests
  | .either preferred other, text => preferred.rests text ++ other.rests text
  | .many repeated, text => repeatedly repeated.rests text

/-- What is left after the match that counts. -/
def Pattern.match? (pattern : Pattern) (text : Text) : Option Text := (pattern.rests text).head?

namespace Pattern

def char (c : Char) : Pattern := .one (· == c)

def word (text : Text) : Pattern := text.foldr (fun c pattern => .seq (.char c) pattern) .nothing

def optional (pattern : Pattern) : Pattern := .either pattern .nothing

/-- Characters of a kind, one at least. -/
def run (allowed : Char → Bool) : Pattern := .seq (.one allowed) (.many (.one allowed))

def name : Pattern := .seq (.one isNameStart) (.many (.one isNameChar))

def digits : Pattern := run Text.isAsciiDigit

def signed : Pattern := .seq (.optional (.one fun c => c == '-' || c == '+')) digits

def exponent : Pattern := .seq (.one fun c => c == 'e' || c == 'E') signed

def float : Pattern := .seq digits (.seq (.char '.') (.seq digits (.optional exponent)))

/-- A word with the end of a name after it. -/
def constant : Pattern :=
  .seq (.either (.word "true".toList) (.word "false".toList)) (.notBefore isNameChar)

/-- A character between quotation marks, with the backslash in front of it if it has one. -/
def quotedOne (mark : Char) : Pattern :=
  .either (.seq (.char '\\') (.one fun _ => true)) (.one fun c => c != mark && c != '\\')

/-- A text in quotation marks, after the first of these. -/
def unquote (mark : Char) : Pattern := .seq (.many (quotedOne mark)) (.char mark)

end Pattern

/-- The rules, in the order in which they are tried. -/
def lexemeRules : List (LexemeKind × Pattern) := [
  (.blank, .run isSeparator),
  (.float, .float),
  (.integer, .digits),
  (.doubleQuoted, .seq (.char '\x22') (.unquote '\x22')),
  (.singleQuoted, .seq (.char '\x27') (.unquote '\x27')),
  (.constant, .constant),
  (.variable, .seq (.char '$') .name),
  (.name, .name),
  (.colon, .char ':'),
  (.slash, .char '/')]

/-- The kind of what the first rule that matches takes from a text, and what it leaves. -/
def firstRule? (text : Text) : Option (LexemeKind × Text) :=
  lexemeRules.findSome? fun rule => (rule.2.match? text).map (rule.1, ·)

namespace Pattern
variable {allowed : Char → Bool} {first second : Pattern} {c mark : Char} {text rest : Text}

@[simp] theorem rests_seq (first second : Pattern) (text : Text) :
    (seq first second).rests text = (first.rests text).flatMap second.rests := rfl

@[simp] theorem rests_either (preferred other : Pattern) (text : Text) :
    (either preferred other).rests text = preferred.rests text ++ other.rests text := rfl

theorem rests_char (d c : Char) (rest : Text) :
    (char d).rests (c :: rest) = if c = d then [rest] else [] := by
  simp [char, rests]

/-- A pattern that begins with one character goes on after it. -/
theorem match?_seq_one (allowed : Char → Bool) (second : Pattern) (c : Char) (rest : Text) :
    (seq (one allowed) second).match? (c :: rest) = if allowed c then second.match? rest else none := by
  by_cases fits : allowed c <;> simp [match?, rests, fits]

theorem match?_one (allowed : Char → Bool) (c : Char) (rest : Text) :
    (one allowed).match? (c :: rest) = if allowed c then some rest else none := by
  by_cases fits : allowed c <;> simp [match?, rests, fits]

/-- Where the second of two patterns always matches, the first match of the first
pattern counts. -/
theorem match?_seq (second : Pattern) (total : ∀ text, second.rests text ≠ []) (text : Text) :
    (seq first second).match? text = (first.match? text).bind second.match? := by
  rw [match?, rests_seq, match?]
  cases first.rests text with
  | nil => rfl
  | cons left more =>
    have some : (second.rests left).head?.isSome := by simpa using total left
    simp [List.head?_append, Option.or_of_isSome some, match?]

theorem rests_many_step (taken : first.rests text = [rest]) (shorter : rest.length < text.length) :
    (many first).rests text = (many first).rests rest ++ [text] := by
  rw [rests, repeatedly]
  simp [taken, shorter, rests]

theorem rests_many_stuck (stuck : first.rests text = []) : (many first).rests text = [text] := by
  rw [rests, repeatedly]
  simp [stuck]

theorem rests_many_cons (fits : allowed c = true) (rest : Text) :
    (many (one allowed)).rests (c :: rest) = (many (one allowed)).rests rest ++ [c :: rest] :=
  rests_many_step (by simp [rests, fits]) (by simp)

theorem rests_many_stop (stops : ∀ c ∈ text.head?, allowed c = false) :
    (many (one allowed)).rests text = [text] := by
  apply rests_many_stuck
  cases text with
  | nil => rfl
  | cons c rest => simp [rests, stops c rfl]

/-- Characters of a kind are taken as far as they go. -/
theorem match?_many (text : Text) : (many (one allowed)).match? text = some (text.dropWhile allowed) := by
  unfold match?
  induction text with
  | nil => rw [rests_many_stop (by simp)]; rfl
  | cons c rest ih =>
    by_cases fits : allowed c
    · rw [rests_many_cons fits, List.head?_append, ih, List.dropWhile_cons_of_pos fits]
      rfl
    · rw [rests_many_stop (by simpa using fits), List.dropWhile_cons_of_neg fits]
      rfl

/-- To give characters back is of no use to a pattern that none of them begins. -/
theorem rests_many_seq (stuck : ∀ c rest, allowed c = true → second.rests (c :: rest) = [])
    (text : Text) :
    (seq (many (one allowed)) second).rests text = second.rests (text.dropWhile allowed) := by
  induction text with
  | nil =>
    rw [rests_seq, rests_many_stop (by simp)]
    simp
  | cons c rest ih =>
    by_cases fits : allowed c
    · rw [rests_seq] at ih
      simp [rests_many_cons fits, ih, fits, stuck c rest fits]
    · rw [rests_seq, rests_many_stop (by simpa using fits), List.dropWhile_cons_of_neg fits]
      simp

theorem match?_run (c : Char) (rest : Text) :
    (run allowed).match? (c :: rest) = if allowed c then some (rest.dropWhile allowed) else none := by
  rw [run, match?_seq_one, match?_many]

theorem match?_name (text : Text) : name.match? text =
    if text.head?.any isNameStart then some ((text.drop 1).dropWhile isNameChar) else none := by
  cases text with
  | nil => rfl
  | cons c rest => simp [name, match?_seq_one, match?_many]

theorem match?_digits (text : Text) : digits.match? text =
    if digitsWidth text = 0 then none else some (text.drop (digitsWidth text)) := by
  cases text with
  | nil => rfl
  | cons c rest =>
    rw [digits, match?_run]
    by_cases digit : Text.isAsciiDigit c
    · simp [digit, digitsWidth, Text.drop_length_takeWhile]
    · simp [digit, digitsWidth]

/-- A sign is taken, as no digits begin with one. -/
theorem match?_signed (text : Text) : signed.match? text =
    if signedWidth text = 0 then none else some (text.drop (signedWidth text)) := by
  have unsigned (c : Char) (rest : Text) (other : ¬(c = '-' ∨ c = '+')) :
      signed.match? (c :: rest) = digits.match? (c :: rest) := by
    simp [signed, match?, optional, other, rests]
  have taken (c : Char) (rest : Text) (sign : c = '-' ∨ c = '+') :
      signed.match? (c :: rest) = digits.match? rest := by
    have none : digits.rests (c :: rest) = [] := by
      rcases sign with rfl | rfl <;> rfl
    simp [signed, match?, optional, sign, rests, none]
  fun_cases signedWidth text with
  | case1 rest zero => simp [taken, match?_digits, zero]
  | case2 rest some => simp [taken, match?_digits, some]
  | case3 rest zero => simp [taken, match?_digits, zero]
  | case4 rest some => simp [taken, match?_digits, some]
  | case5 text notPlus notMinus =>
    cases text with
    | nil => rfl
    | cons c rest =>
      have other : ¬(c = '-' ∨ c = '+') := by
        rintro (rfl | rfl)
        · exact notMinus rest rfl
        · exact notPlus rest rfl
      rw [unsigned c rest other, match?_digits]

theorem match?_exponent (text : Text) : exponent.match? text =
    if exponentWidth text = 0 then none else some (text.drop (exponentWidth text)) := by
  cases text with
  | nil => rfl
  | cons c rest =>
    rw [exponent, match?_seq_one, match?_signed]
    by_cases letter : c = 'e' ∨ c = 'E'
    · by_cases zero : signedWidth rest = 0 <;> simp [exponentWidth, letter, zero]
    · simp [exponentWidth, letter]

theorem match?_optional (pattern : Pattern) (text : Text) :
    pattern.optional.match? text = (pattern.match? text).or (some text) := by
  simp [optional, match?, List.head?_append, rests]

theorem rests_optional (pattern : Pattern) (text : Text) : pattern.optional.rests text ≠ [] := by
  simp [optional, rests]

theorem match?_optional_exponent (text : Text) :
    exponent.optional.match? text = some (text.drop (exponentWidth text)) := by
  rw [match?_optional, match?_exponent]
  by_cases zero : exponentWidth text = 0 <;> simp [zero]

/-- Inside the quotes each character is taken in one way only, so that the matcher
is never led astray: it closes them at the first mark that is not escaped. -/
theorem rests_unquote (other : mark ≠ '\\') (text : Text) :
    (unquote mark).rests text = ((quotedWidth mark text).map fun width => text.drop width).toList := by
  unfold unquote
  fun_induction quotedWidth mark text with
  | case1 =>
    rw [rests_seq, rests_many_stuck rfl]
    rfl
  | case2 c rest ih =>
    have escaped : (quotedOne mark).rests ('\\' :: c :: rest) = [rest] := by
      simp [quotedOne, char, rests]
    rw [rests_seq] at ih
    have shorter : rest.length < ('\\' :: c :: rest).length := by
      simp only [List.length_cons]
      omega
    rw [rests_seq, rests_many_step escaped shorter, List.flatMap_append, ih]
    simp [char, rests, other.symm, Function.comp_def]
  | case3 rest notPair =>
    have closed : (quotedOne mark).rests (mark :: rest) = [] := by
      simp [quotedOne, char, rests, other]
    rw [rests_seq, rests_many_stuck closed]
    simp [char, rests]
  | case4 rest notPair notMark =>
    have last : (quotedOne mark).rests ('\\' :: rest) = [] := by
      cases rest with
      | nil => simp [quotedOne, char, rests]
      | cons d rest => exact absurd rfl (notPair d rest rfl)
    rw [rests_seq, rests_many_stuck last]
    simp [char, rests, notMark]
  | case5 c rest notPair notMark notEscape ih =>
    have inside : (quotedOne mark).rests (c :: rest) = [rest] := by
      simp [quotedOne, char, rests, notMark, notEscape]
    rw [rests_seq] at ih
    rw [rests_seq, rests_many_step inside (by simp), List.flatMap_append, ih]
    simp [char, rests, notMark, Function.comp_def]

theorem match?_unquote (other : mark ≠ '\\') (text : Text) :
    (unquote mark).match? text = (quotedWidth mark text).map fun width => text.drop width := by
  rw [match?, rests_unquote other]
  cases quotedWidth mark text <;> rfl

theorem word_cons (c : Char) (spelled : Text) : word (c :: spelled) = seq (char c) (word spelled) :=
  rfl

/-- A word that nothing of a name follows is all of a name. -/
theorem rests_word (spelled : Text) (named : spelled.all isNameChar = true) (text : Text) :
    (seq (word spelled) (notBefore isNameChar)).rests text =
      if text.takeWhile isNameChar = spelled then [text.dropWhile isNameChar] else [] := by
  induction spelled generalizing text with
  | nil =>
    cases text with
    | nil => rfl
    | cons c rest => by_cases name : isNameChar c <;> simp [word, rests, name]
  | cons d spelled ih =>
    obtain ⟨first, more⟩ := Bool.and_eq_true_iff.mp (List.all_cons.symm.trans named)
    rw [rests_seq, word_cons, rests_seq]
    cases text with
    | nil => rfl
    | cons c rest =>
      have ih := ih more rest
      rw [rests_seq] at ih
      by_cases same : c = d
      · subst same
        simp [rests_char, first, ih]
      · by_cases name : isNameChar c <;> simp [rests_char, same, name]

theorem match?_constant (text : Text) : constant.match? text =
    if text.takeWhile isNameChar = "true".toList ∨ text.takeWhile isNameChar = "false".toList then
      some (text.dropWhile isNameChar) else none := by
  have split : constant.rests text =
      (seq (word "true".toList) (notBefore isNameChar)).rests text ++
        (seq (word "false".toList) (notBefore isNameChar)).rests text := by
    simp [constant]
  rw [match?, split, rests_word _ (by decide), rests_word _ (by decide)]
  generalize text.takeWhile isNameChar = found
  by_cases isTrue : found = "true".toList
  · rw [if_pos isTrue, if_pos (Or.inl isTrue)]
    rfl
  · by_cases isFalse : found = "false".toList
    · rw [if_neg isTrue, if_pos isFalse, if_pos (Or.inr isFalse)]
      rfl
    · rw [if_neg isTrue, if_neg isFalse, if_neg (not_or.mpr ⟨isTrue, isFalse⟩)]
      rfl

theorem match?_fraction (text : Text) : (seq digits exponent.optional).match? text =
    if digitsWidth text = 0 then none
    else some ((text.drop (digitsWidth text)).drop (exponentWidth (text.drop (digitsWidth text)))) := by
  rw [match?_seq _ (rests_optional exponent), match?_digits]
  by_cases zero : digitsWidth text = 0 <;> simp [zero, match?_optional_exponent]

/-- No digit begins with a point, so that digits go on as far as there are any. -/
theorem match?_float_digit {c : Char} (digit : Text.isAsciiDigit c = true) (rest : Text) :
    float.match? (c :: rest) =
      (seq (char '.') (seq digits exponent.optional)).match? (rest.drop (digitsWidth rest)) := by
  have stuck (d : Char) (more : Text) (digit : Text.isAsciiDigit d = true) :
      (seq (char '.') (seq digits exponent.optional)).rests (d :: more) = [] := by
    have other : d ≠ '.' := by
      rintro rfl
      exact absurd digit (by decide)
    simp [rests_char, other]
  rw [match?, match?, digitsWidth, Text.drop_length_takeWhile, ← rests_many_seq stuck]
  simp [float, digits, run, rests, digit]

end Pattern

theorem scanNumber_of_point {rest more : Text} (point : rest.drop (digitsWidth rest) = '.' :: more) :
    scanNumber rest = if digitsWidth more = 0 then (.integer, digitsWidth rest)
      else (.float, digitsWidth rest + 1 + digitsWidth more +
        exponentWidth (more.drop (digitsWidth more))) := by
  simp [scanNumber, point]

theorem scanNumber_of_noPoint {rest : Text}
    (noPoint : ∀ more, rest.drop (digitsWidth rest) ≠ '.' :: more) :
    scanNumber rest = (.integer, digitsWidth rest) := by
  unfold scanNumber
  dsimp only
  split
  · rename_i more point
    exact absurd point (noPoint more)
  · rfl

theorem scanNumber_cases (rest : Text) :
    (scanNumber rest).1 = .float ∨ scanNumber rest = (.integer, digitsWidth rest) := by
  by_cases point : ∃ more, rest.drop (digitsWidth rest) = '.' :: more
  · obtain ⟨more, point⟩ := point
    rw [scanNumber_of_point point]
    split
    · exact .inr rfl
    · exact .inl rfl
  · exact .inr (scanNumber_of_noPoint (not_exists.mp point))

namespace Pattern

theorem match?_float {c : Char} (digit : Text.isAsciiDigit c = true) (rest : Text) :
    float.match? (c :: rest) =
      if (scanNumber rest).1 = .float then some (rest.drop (scanNumber rest).2) else none := by
  rw [match?_float_digit digit]
  by_cases point : ∃ more, rest.drop (digitsWidth rest) = '.' :: more
  · obtain ⟨more, point⟩ := point
    rw [scanNumber_of_point point, point, char, match?_seq_one, if_pos (by decide), match?_fraction]
    split
    · rfl
    · simp only [← List.drop_drop, point, ↓reduceIte, List.drop_succ_cons, List.drop_zero]
  · have noPoint := not_exists.mp point
    rw [scanNumber_of_noPoint noPoint, if_neg LexemeKind.noConfusion]
    cases after : rest.drop (digitsWidth rest) with
    | nil => rfl
    | cons d more =>
      have other : d ≠ '.' := by
        rintro rfl
        exact noPoint more after
      simp [char, match?_seq_one, other]

/-- A pattern that begins with characters of a kind matches no other character. -/
theorem match?_seq_run_none (refused : allowed c = false) (second : Pattern) (rest : Text) :
    (seq (run allowed) second).match? (c :: rest) = none := by
  simp [run, match?, rests, refused]

end Pattern

section Rules
variable {c : Char}

theorem match?_constant_none (other : isNameChar c = false) (rest : Text) :
    Pattern.constant.match? (c :: rest) = none := by
  rw [Pattern.match?_constant, List.takeWhile_cons_of_neg (by simp [other])]
  rfl

/-- Of the names, the two truth values are matched by a rule before. -/
theorem match?_constant_name (begins : isNameStart c = true) (rest : Text) :
    Pattern.constant.match? (c :: rest) =
      if c :: rest.takeWhile isNameChar = "true".toList ∨
          c :: rest.takeWhile isNameChar = "false".toList then
        some (rest.dropWhile isNameChar) else none := by
  have continues : isNameChar c = true := by simp [isNameChar, begins]
  rw [Pattern.match?_constant, List.takeWhile_cons_of_pos continues,
    List.dropWhile_cons_of_pos continues]

/-- The scan finds what the rules say: the kind and the end of what the first rule
takes, or no lexeme where no rule matches. -/
theorem firstRule?_cons (c : Char) (rest : Text) : firstRule? (c :: rest) =
    if (scanLexeme c rest).1 = .illegal then none
    else some ((scanLexeme c rest).1, rest.drop (scanLexeme c rest).2) := by
  simp only [firstRule?, lexemeRules, List.findSome?_cons, List.findSome?_nil]
  have blank : (Pattern.run isSeparator).match? (c :: rest) = _ := Pattern.match?_run c rest
  cases separator : isSeparator c with
  | true => simp [blank, separator, scanLexeme, Text.drop_length_takeWhile]
  | false =>
  cases digit : Text.isAsciiDigit c with
  | true =>
    have integer : Pattern.digits.match? (c :: rest) = _ := Pattern.match?_run c rest
    rw [if_pos digit, ← Text.drop_length_takeWhile, ← digitsWidth] at integer
    simp only [blank, separator, Pattern.match?_float digit, integer, scanLexeme, digit]
    rcases scanNumber_cases rest with float | whole
    · simp [float]
    · simp [whole]
  | false =>
  have float : Pattern.float.match? (c :: rest) = none := Pattern.match?_seq_run_none digit _ rest
  have integer : Pattern.digits.match? (c :: rest) = none := by
    rw [Pattern.digits, Pattern.match?_run, digit]
    rfl
  have double : (Pattern.unquote '\x22').match? rest = _ := Pattern.match?_unquote (by decide) rest
  have single : (Pattern.unquote '\x27').match? rest = _ := Pattern.match?_unquote (by decide) rest
  simp only [blank, separator, float, integer, double, single, Pattern.char, Pattern.match?_seq_one,
    Pattern.match?_one, Pattern.match?_name, scanLexeme, digit, beq_iff_eq]
  by_cases isDouble : c = '\x22'
  · subst isDouble
    have begins : isNameStart '\x22' = false := by decide
    rw [match?_constant_none (by decide)]
    cases quotedWidth '\x22' rest <;> simp [begins]
  by_cases isSingle : c = '\x27'
  · subst isSingle
    have begins : isNameStart '\x27' = false := by decide
    rw [match?_constant_none (by decide)]
    cases quotedWidth '\x27' rest <;> simp [begins]
  cases begins : isNameStart c with
  | true =>
    have notDollar : c ≠ '$' := by
      rintro rfl
      exact absurd begins (by decide)
    rw [match?_constant_name begins]
    simp only [isDouble, isSingle, Bool.or_eq_true, decide_eq_true_eq]
    by_cases constant : c :: rest.takeWhile isNameChar = "true".toList ∨
        c :: rest.takeWhile isNameChar = "false".toList
    · simp only [if_pos constant]
      simp [Text.drop_length_takeWhile]
    · simp only [if_neg constant]
      simp [notDollar, begins, Text.drop_length_takeWhile]
  | false =>
    rw [match?_constant_none (by simp [isNameChar, begins, digit])]
    by_cases dollar : c = '$'
    · subst dollar
      cases rest with
      | nil => simp [begins]
      | cons d more => cases named : isNameStart d <;> simp [named, Text.drop_length_takeWhile, begins]
    simp only [List.head?_cons, Option.any_some, begins, isDouble, isSingle, dollar, ↓reduceIte]
    by_cases colon : c = ':'
    · simp [colon]
    by_cases slash : c = '/' <;> simp [colon, slash]

end Rules

end Regen.Header
