import Regen.Proofs.AlikeReadings
import Regen.Proofs.LexemeStream
import Regen.Proofs.Relocation

/-! Separators carry no meaning. A header may be written again with other blanks
and commas, more of them and in more places; where there were none there may be
some, only where there were some there are some. No lexeme then ends elsewhere, so
the tokens are the same but for their places, and the parser reads the same from
them or stops at the same token. -/
namespace Regen.Header

/-- A text with the same lexemes but for the blanks: each of these is another one,
and gaps stand in front of the others and at the end. -/
inductive Respaced : List Lexeme → Text → Prop
  | done (gap : Gap) : Respaced [] gap.text
  | blank {lexeme : Lexeme} {more : List Lexeme} {text : Text} (space : Space) :
    lexeme.kind = .blank → Respaced more text → Respaced (lexeme :: more) (space.text ++ text)
  | token {lexeme : Lexeme} {more : List Lexeme} {text : Text} (gap : Gap) :
    lexeme.kind ≠ .blank → Respaced more text →
    Respaced (lexeme :: more) (gap.text ++ (lexeme.text ++ text))

section Fronts
variable {text text' rest run : Text} {c : Char} {symbols : List Symbol}

theorem Sound.tail (sound : Sound (c :: rest)) : Sound (rest.drop (scanLexeme c rest).2) := by
  rw [Sound, lexemes_cons] at sound
  exact (List.forall_mem_cons.mp sound).2

theorem Sound.first (sound : Sound (c :: rest)) : (firstLexeme c rest).kind ≠ .illegal := by
  rw [Sound, lexemes_cons] at sound
  exact (List.forall_mem_cons.mp sound).1

/-- No number goes on with a character that begins a lexeme. -/
theorem Sound.head (sound : Sound (c :: rest)) : c ≠ '.' ∧ c ≠ '+' ∧ c ≠ '-' := by
  have legal := sound.first
  refine ⟨?_, ?_, ?_⟩ <;> rintro rfl <;> exact legal rfl

theorem head_of_separators (blank : run.all isSeparator = true) (filled : run ≠ []) :
    ∀ d ∈ (run ++ rest).head?, isSeparator d = true := by
  cases run with
  | nil => exact absurd rfl filled
  | cons c run =>
    rintro d ⟨⟩
    exact List.all_eq_true.mp blank c List.mem_cons_self

/-- A text that is written again begins with a separator, or else as it did. -/
theorem Respaced.front (respaced : Respaced (lexemes text) text') :
    (∀ d ∈ text'.head?, isSeparator d = true) ∨
      ∃ c rest after, text = c :: rest ∧ text' = (firstLexeme c rest).text ++ after ∧
        Respaced (lexemes (rest.drop (scanLexeme c rest).2)) after := by
  cases text with
  | nil =>
    rw [lexemes] at respaced
    cases respaced with
    | done gap =>
      exact .inl fun d first => List.all_eq_true.mp gap.blank d (List.mem_of_head? first)
  | cons c rest =>
    rw [lexemes_cons] at respaced
    cases respaced with
    | blank space _ _ => exact .inl (head_of_separators space.blank space.filled)
    | @token _ _ after gap _ later =>
      by_cases none : gap.text = []
      · exact .inr ⟨c, rest, after, rfl, by rw [none, List.nil_append], later⟩
      · exact .inl (head_of_separators gap.blank none)

theorem Respaced.head (respaced : Respaced (lexemes text) text') :
    ∀ d ∈ text'.head?, isSeparator d = true ∨ text.head? = some d := by
  intro d first
  rcases respaced.front with separator | ⟨c, rest, after, rfl, rfl, -⟩
  · exact .inl (separator d first)
  · exact .inr first

/-- A kind of character that is never a separator still does not come next. -/
theorem Respaced.stops {p : Char → Bool} (respaced : Respaced (lexemes text) text')
    (solid : ∀ d, p d = true → isSeparator d = false) (stops : ∀ d ∈ text.head?, p d = false) :
    ∀ d ∈ text'.head?, p d = false := by
  intro d first
  rcases respaced.head d first with separator | same
  · cases fits : p d with
    | false => rfl
    | true => simp [solid d fits] at separator
  · exact stops d same

theorem Respaced.not_point (respaced : Respaced (lexemes text) text') (sound : Sound text)
    (more : Text) : text' ≠ '.' :: more := by
  rintro rfl
  rcases respaced.head '.' rfl with separator | same
  · exact absurd separator (by decide)
  · cases text with
    | nil => cases same
    | cons c rest =>
      cases same
      exact sound.head.1 rfl

/-- Digits with a sign or without begin with a digit or a sign. -/
theorem signedWidth_eq_zero (unsigned : ∀ d ∈ text.head?, d ≠ '+' ∧ d ≠ '-')
    (stops : ∀ d ∈ text.head?, Text.isAsciiDigit d = false) : signedWidth text = 0 := by
  cases text with
  | nil => rfl
  | cons c rest =>
    have sign := unsigned c rfl
    rw [signedWidth_unsigned (not_or.mpr sign), digitsWidth_eq_zero_iff]
    exact stops

theorem not_digit_of_signedWidth (none : signedWidth text = 0) :
    ∀ d ∈ text.head?, Text.isAsciiDigit d = false := by
  cases text with
  | nil => simp
  | cons c rest =>
    rintro d ⟨⟩
    by_cases sign : c = '+' ∨ c = '-'
    · rcases sign with rfl | rfl <;> decide
    · rw [signedWidth_unsigned sign, digitsWidth_eq_zero_iff] at none
      exact none c rfl

theorem isNameStart_of_mark (mark : isExponentMark c = true) : isNameStart c = true := by
  simp only [isExponentMark, Bool.or_eq_true, beq_iff_eq] at mark
  rcases mark with rfl | rfl <;> decide

theorem not_mark_of_separator (separator : isSeparator c = true) : isExponentMark c = false := by
  cases mark : isExponentMark c with
  | false => rfl
  | true => simp [not_separator_of_isNameStart (isNameStart_of_mark mark)] at separator

/-- After a name that is written again comes a separator, or what came before; that
is no sign, as a sign is no lexeme. -/
theorem Respaced.after_name {after : Text} (begins : isNameStart c = true) (sound : Sound (c :: rest))
    (later : Respaced (lexemes (rest.drop (scanLexeme c rest).2)) after) :
    ∀ d ∈ (rest.take (scanLexeme c rest).2 ++ after).head?,
      isSeparator d = true ∨ rest.head? = some d ∧ d ≠ '+' ∧ d ≠ '-' := by
  have width : (scanLexeme c rest).2 = (rest.takeWhile isNameChar).length := by
    rw [scanLexeme_letter begins]
  have name : rest.take (scanLexeme c rest).2 = rest.takeWhile isNameChar := by
    rw [width, ← List.prefix_iff_eq_take.mp (List.takeWhile_prefix _)]
  have tail := sound.tail
  rw [name]
  cases rest with
  | nil =>
    simp only [List.takeWhile_nil, List.nil_append]
    intro d first
    rcases later.head d first with separator | same
    · exact .inl separator
    · simp at same
  | cons e rest =>
    cases continues : isNameChar e with
    | true =>
      rw [List.takeWhile_cons_of_pos continues]
      rintro d ⟨⟩
      refine .inr ⟨rfl, ?_, ?_⟩ <;> rintro rfl <;> exact absurd continues (by decide)
    | false =>
      rw [List.takeWhile_cons_of_neg (by simp [continues])] at width ⊢
      rw [width] at later tail
      intro d first
      rcases later.head d first with separator | same
      · exact .inl separator
      · cases same
        exact .inr ⟨rfl, tail.head.2⟩

/-- What follows a float without an exponent does not become one. -/
theorem Respaced.exponentWidth_eq_zero (respaced : Respaced (lexemes text) text')
    (sound : Sound text) (none : exponentWidth text = 0) : exponentWidth text' = 0 := by
  rcases respaced.front with separator | ⟨c, rest, after, rfl, rfl, later⟩
  · cases text' with
    | nil => rfl
    | cons d more => exact exponentWidth_other (not_mark_of_separator (separator d rfl)) more
  · cases mark : isExponentMark c with
    | false => exact exponentWidth_other mark _
    | true =>
      have unsigned : signedWidth rest = 0 := by
        rw [exponentWidth_mark mark] at none
        by_contra some
        rw [if_neg some] at none
        cases none
      have next := later.after_name (isNameStart_of_mark mark) sound
      rw [firstLexeme, List.cons_append, exponentWidth_mark mark, if_pos]
      refine signedWidth_eq_zero ?_ ?_
      · intro d first
        rcases next d first with separator | ⟨-, unsigned⟩
        · constructor <;> rintro rfl <;> exact absurd separator (by decide)
        · exact unsigned
      · intro d first
        rcases next d first with separator | ⟨same, -⟩
        · cases digit : Text.isAsciiDigit d with
          | false => rfl
          | true => simp [not_separator_of_isAsciiDigit digit] at separator
        · exact not_digit_of_signedWidth unsigned d same

/-- A lexeme ends where it ended when what follows is written again. -/
theorem Lexeme.Ends.respaced {lexeme : Lexeme} (ends : lexeme.Ends text) (filled : lexeme.kind ≠ .blank)
    (sound : Sound text) (respaced : Respaced (lexemes text) text') : lexeme.Ends text' := by
  obtain ⟨kind, word⟩ := lexeme
  have names := fun stops => respaced.stops (p := isNameChar) (fun _ => not_separator_of_isNameChar) stops
  have digits := fun stops =>
    respaced.stops (p := Text.isAsciiDigit) (fun _ => not_separator_of_isAsciiDigit) stops
  cases kind with
  | blank => exact absurd rfl filled
  | integer => exact ⟨digits ends.1, fun more same => absurd same (respaced.not_point sound more)⟩
  | float => exact ⟨digits ends.1, fun bare => respaced.exponentWidth_eq_zero sound (ends.2 bare)⟩
  | doubleQuoted => trivial
  | singleQuoted => trivial
  | colon => trivial
  | slash => trivial
  | illegal => trivial
  | _ => exact names ends

end Fronts

section Meanings
variable {text text' rest run : Text} {c : Char} {symbols : List Symbol}

theorem Means.after_blanks (means : Means text symbols) :
    Means (text.dropWhile isSeparator) symbols := by
  cases text with
  | nil => exact means
  | cons c rest =>
    cases separator : isSeparator c with
    | false => rwa [List.dropWhile_cons_of_neg (by simp [separator])]
    | true =>
      obtain ⟨sound, spelled⟩ := means
      have first : firstLexeme c rest = ⟨.blank, c :: rest.takeWhile isSeparator⟩ := by
        rw [firstLexeme, scanLexeme_separator separator,
          ← List.prefix_iff_eq_take.mp (List.takeWhile_prefix _)]
      have after : rest.drop (scanLexeme c rest).2 = rest.dropWhile isSeparator := by
        rw [scanLexeme_separator separator, Text.drop_length_takeWhile]
      rw [lexemes_cons, first, after] at sound spelled
      rw [List.dropWhile_cons_of_pos separator]
      exact ⟨(List.forall_mem_cons.mp sound).2, spelled⟩

/-- Separators in front of a text, which may begin with some already. -/
theorem Means.blanks (blank : run.all isSeparator = true) (means : Means text symbols) :
    Means (run ++ text) symbols := by
  have all : (run ++ text.takeWhile isSeparator).all isSeparator = true := by
    rw [List.all_append, blank, List.all_takeWhile]
    rfl
  have inked : Inked (text.dropWhile isSeparator) := by
    intro d first
    have stops := List.head?_dropWhile_not isSeparator text
    rw [first] at stops
    simpa using stops
  have means := means.after_blanks.gap ⟨_, all⟩ inked
  rwa [List.append_assoc, List.takeWhile_append_dropWhile] at means

/-- A text that is written again means the same. -/
theorem Means.respaced (means : Means text symbols) (respaced : Respaced (lexemes text) text') :
    Means text' symbols := by
  induction text using lexeme_induction generalizing text' symbols with
  | nil =>
    rw [lexemes] at respaced
    cases respaced with
    | done gap => simpa using means.blanks gap.blank
  | cons c rest ih =>
    have sound := means.sound_text
    obtain ⟨legal, fine, later, rfl, following⟩ := means.first
    rw [lexemes_cons] at respaced
    cases respaced with
    | blank space blank respaced =>
      rw [symbol?_of_blank blank]
      exact (ih following respaced).blanks space.blank
    | token gap filled respaced =>
      obtain ⟨alone, ends⟩ := firstLexeme_alone c rest legal
      have ends := ends.respaced filled sound.tail respaced
      have cut := (scanLexeme_append_iff legal).mpr ⟨alone, ends⟩
      exact ((ih following respaced).lexeme cut fine).blanks gap.blank

end Meanings

/-- Separators carry no meaning. A header that has tokens still has them, with the
same symbols, when it is written again with other separators, more of them and in
more places, and the parser reads the same from it or fails at the same token. -/
theorem separators_carry_no_meaning {text text' : Text} {loc : Position} {tokens : List Token}
    (read : tokenize text loc = .ok tokens) (respaced : Respaced (lexemes text) text')
    (loc' : Position) : ∃ tokens', tokenize text' loc' = .ok tokens' ∧
      tokens'.map Token.symbol = tokens.map Token.symbol ∧
      ∀ defaultNamespace, ReadAlike (tokens.zip tokens') (HeaderAlike (tokens.zip tokens'))
        (parse defaultNamespace tokens) (parse defaultNamespace tokens') := by
  have means := (means_of_tokenize read).respaced respaced
  obtain ⟨tokens', read', same⟩ := means.tokenize loc'
  refine ⟨tokens', read', same, fun defaultNamespace => ?_⟩
  exact parse_alike defaultNamespace (paired_of_symbols same (List.Subset.refl _))

/-- Commas and blanks around the tokens of a parameter. -/
theorem separators_carry_no_meaning_comma :
    ∃ tokens, tokenize [',', 'a', ' ', ':', ',', '1', '\n'] .start = .ok tokens ∧
      tokens.map Token.symbol = [.identifier "a", .colon, .integer 1] := by
  have cut : lexemes ['a', ':', '1'] = [⟨.name, ['a']⟩, ⟨.colon, [':']⟩, ⟨.integer, ['1']⟩] := by
    rw [lexemes_cons]
    change ⟨.name, ['a']⟩ :: lexemes [':', '1'] = _
    rw [lexemes_cons]
    change _ :: ⟨.colon, [':']⟩ :: lexemes ['1'] = _
    rw [lexemes_cons]
    change _ :: _ :: ⟨.integer, ['1']⟩ :: lexemes [] = _
    rw [lexemes]
  have read : tokenize ['a', ':', '1'] .start =
      .ok [⟨.identifier "a", ⟨1, 1⟩⟩, ⟨.colon, ⟨1, 2⟩⟩, ⟨.integer 1, ⟨1, 3⟩⟩] := by
    rw [tokenize, cut]
    rfl
  have respaced : Respaced (lexemes ['a', ':', '1']) [',', 'a', ' ', ':', ',', '1', '\n'] := by
    rw [cut]
    exact .token ⟨[','], rfl⟩ (by decide) (.token ⟨[' '], rfl⟩ (by decide)
      (.token ⟨[','], rfl⟩ (by decide) (.done ⟨['\n'], rfl⟩)))
  obtain ⟨tokens, read', same, -⟩ := separators_carry_no_meaning read respaced .start
  exact ⟨tokens, read', same⟩

end Regen.Header
