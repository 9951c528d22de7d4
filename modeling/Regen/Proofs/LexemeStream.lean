import Mathlib.Data.List.Forall2
import Regen.Header.Token
import Regen.Proofs.LexemeEnds

/-! The stream of lexemes. It cuts a header without losing a character, and every
lexeme is what the rules take there: as long as it can be, whole up to the mark
that closes it, or a single character where no rule matches. Tokens are what it
says once blanks are left out, at the positions that the indexes stand for. -/
namespace Regen.Header
open Position

/-- A lexeme is what is cut off a text, and `rest` is what remains. -/
structure Lexeme.CutOff (lexeme : Lexeme) (text rest : Text) : Prop where
  whole : text = lexeme.text ++ rest
  filled : lexeme.text ≠ []
  ruled : lexeme.kind ≠ .illegal → firstRule? text = some (lexeme.kind, rest)
  unruled : lexeme.kind = .illegal → firstRule? text = none ∧ lexeme.text.length = 1
  name : lexeme.kind ∈ [.name, .variable, .constant] → ∀ c ∈ rest.head?, isNameChar c = false
  number : lexeme.kind ∈ [.integer, .float] → ∀ c ∈ rest.head?, Text.isAsciiDigit c = false
  blank : lexeme.kind = .blank → ∀ c ∈ rest.head?, isSeparator c = false
  closed : ∀ (quotes : Quotes) (body after : Text), text = quotes.mark :: (body ++ quotes.mark :: after) →
    Enclosed quotes.mark body → lexeme = ⟨quotes.kind, quotes.mark :: (body ++ [quotes.mark])⟩
  unclosed : ∀ (quotes : Quotes) (inside : Text), text = quotes.mark :: inside →
    (¬∃ body after, inside = body ++ quotes.mark :: after ∧ Enclosed quotes.mark body) →
    lexeme = ⟨.illegal, [quotes.mark]⟩

/-- The lexeme that is cut off a text that is not empty. -/
def firstLexeme (c : Char) (rest : Text) : Lexeme :=
  ⟨(scanLexeme c rest).1, c :: rest.take (scanLexeme c rest).2⟩

section Cutting
variable {c : Char} {rest : Text}

theorem length_firstLexeme (c : Char) (rest : Text) :
    (firstLexeme c rest).text.length = (scanLexeme c rest).2 + 1 := by
  rw [firstLexeme, List.length_cons, List.length_take_of_le (scanLexeme_le c rest)]

theorem width_of_illegal (illegal : (scanLexeme c rest).1 = .illegal) : (scanLexeme c rest).2 = 0 := by
  cases digit : Text.isAsciiDigit c with
  | true =>
    rw [scanLexeme_digit digit] at illegal
    rcases scanNumber_cases rest with float | integer
    · simp [float] at illegal
    · simp [integer] at illegal
  | false =>
    unfold scanLexeme at illegal ⊢
    rw [digit] at illegal ⊢
    grind

/-- The first lexeme is found alone as well, and what is left does not continue it. -/
theorem firstLexeme_alone (c : Char) (rest : Text) (legal : (firstLexeme c rest).kind ≠ .illegal) :
    scanLexeme c (rest.take (scanLexeme c rest).2) =
        ((firstLexeme c rest).kind, (rest.take (scanLexeme c rest).2).length) ∧
      (firstLexeme c rest).Ends (rest.drop (scanLexeme c rest).2) := by
  have width := List.length_take_of_le (scanLexeme_le c rest)
  refine (scanLexeme_append_iff legal).mp ?_
  rw [List.take_append_drop, width]
  rfl

theorem firstLexeme_mark_closed (quotes : Quotes) {body : Text} (enclosed : Enclosed quotes.mark body)
    (after : Text) : firstLexeme quotes.mark (body ++ quotes.mark :: after) =
      ⟨quotes.kind, quotes.mark :: (body ++ [quotes.mark])⟩ := by
  have closed : (body ++ quotes.mark :: after).take (body.length + 1) = body ++ [quotes.mark] := by
    rw [← List.singleton_append, ← List.append_assoc, List.take_left' (by simp)]
  rw [firstLexeme, scanLexeme_mark, quotedWidth_of_enclosed enclosed quotes.mark_ne]
  simp [closed]

theorem firstLexeme_mark_unclosed (quotes : Quotes)
    (unclosed : ¬∃ body after, rest = body ++ quotes.mark :: after ∧ Enclosed quotes.mark body) :
    firstLexeme quotes.mark rest = ⟨.illegal, [quotes.mark]⟩ := by
  cases found : quotedWidth quotes.mark rest with
  | none =>
    rw [firstLexeme, scanLexeme_mark, found]
    rfl
  | some width =>
    obtain ⟨body, after, same, enclosed, -⟩ := enclosed_of_quotedWidth found
    exact absurd ⟨body, after, same, enclosed⟩ unclosed

theorem cutOff_firstLexeme (c : Char) (rest : Text) :
    (firstLexeme c rest).CutOff (c :: rest) (rest.drop (scanLexeme c rest).2) where
  whole := by simp [firstLexeme]
  filled := by simp [firstLexeme]
  ruled legal := (firstRule?_cons c rest).trans (if_neg legal)
  unruled illegal := by
    refine ⟨(firstRule?_cons c rest).trans (if_pos illegal), ?_⟩
    rw [length_firstLexeme, width_of_illegal illegal]
  name named := by
    have ends := fun legal => (firstLexeme_alone c rest legal).2
    simp only [List.mem_cons, List.not_mem_nil, or_false] at named
    rcases named with same | same | same <;> simpa [Lexeme.Ends, same] using ends
  number numbered := by
    have ends := fun legal => (firstLexeme_alone c rest legal).2
    simp only [List.mem_cons, List.not_mem_nil, or_false] at numbered
    rcases numbered with same | same <;> simp only [Lexeme.Ends, same] at ends
    · exact (ends (by decide)).1
    · exact (ends (by decide)).1
  blank same := by
    have ends := fun legal => (firstLexeme_alone c rest legal).2
    simpa [Lexeme.Ends, same] using ends
  closed := by
    rintro quotes body after ⟨⟩ enclosed
    exact firstLexeme_mark_closed quotes enclosed after
  unclosed := by
    rintro quotes inside ⟨⟩ unclosed
    exact firstLexeme_mark_unclosed quotes unclosed

end Cutting

theorem lexemes_cons (c : Char) (rest : Text) :
    lexemes (c :: rest) = firstLexeme c rest :: lexemes (rest.drop (scanLexeme c rest).2) := by
  rw [lexemes]
  rfl

theorem lexemesFrom_cons (index : Nat) (c : Char) (rest : Text) :
    lexemesFrom index (c :: rest) = (index, firstLexeme c rest) ::
      lexemesFrom (index + (firstLexeme c rest).text.length) (rest.drop (scanLexeme c rest).2) := by
  rw [lexemesFrom, length_firstLexeme]
  rfl

/-- What holds of a text when it holds of what its first lexeme leaves. -/
theorem lexeme_induction {motive : Text → Prop} (nil : motive [])
    (cons : ∀ c rest, motive (rest.drop (scanLexeme c rest).2) → motive (c :: rest)) (text : Text) :
    motive text := by
  fun_induction lexemes text with
  | case1 => exact nil
  | case2 c rest found ih => exact cons c rest ih

section Streams
variable {index start : Nat} {text : Text} {lexeme : Lexeme} {before after : List (Nat × Lexeme)}

theorem map_lexemesFrom (index : Nat) (text : Text) :
    (lexemesFrom index text).map Prod.snd = lexemes text := by
  fun_induction lexemes text generalizing index with
  | case1 => simp [lexemesFrom]
  | case2 c rest found ih => rw [lexemesFrom_cons, List.map_cons, ih]; rfl

/-- The characters of entries of the stream. -/
def spanOf (entries : List (Nat × Lexeme)) : Text := entries.flatMap fun entry => entry.2.text

theorem spanOf_cons (entry : Nat × Lexeme) (more : List (Nat × Lexeme)) :
    spanOf (entry :: more) = entry.2.text ++ spanOf more := List.flatMap_cons

/-- Each entry is cut off what the entries before it leave. -/
theorem cutOff_of_stream (split : lexemesFrom start text = before ++ (index, lexeme) :: after) :
    index = start + (spanOf before).length ∧
      ∃ left rest, text = spanOf before ++ left ∧ lexeme.CutOff left rest := by
  induction before generalizing start text with
  | nil =>
    cases text with
    | nil => simp [lexemesFrom] at split
    | cons c rest =>
      rw [lexemesFrom_cons] at split
      cases split
      exact ⟨rfl, c :: rest, _, rfl, cutOff_firstLexeme c rest⟩
  | cons entry before ih =>
    cases text with
    | nil => simp [lexemesFrom] at split
    | cons c rest =>
      rw [lexemesFrom_cons, List.cons_append, List.cons.injEq] at split
      obtain ⟨rfl, split⟩ := split
      obtain ⟨rfl, left, rest', same, cut⟩ := ih split
      refine ⟨by rw [spanOf_cons, List.length_append, Nat.add_assoc], left, rest', ?_, cut⟩
      rw [spanOf_cons, List.append_assoc, ← same]
      exact (cutOff_firstLexeme c rest).whole

theorem cutOff_of_lexemesFrom (split : lexemesFrom 0 text = before ++ (index, lexeme) :: after) :
    index = (spanOf before).length ∧
      lexeme.CutOff (text.drop index) (text.drop (index + lexeme.text.length)) := by
  obtain ⟨place, left, rest, rfl, cut⟩ := cutOff_of_stream split
  rw [Nat.zero_add] at place
  subst place
  refine ⟨rfl, ?_⟩
  rw [← List.drop_drop, List.drop_left]
  have remains : left.drop lexeme.text.length = rest := by rw [cut.whole, List.drop_left]
  rwa [remains]

theorem spanOf_lexemesFrom (start : Nat) (text : Text) : spanOf (lexemesFrom start text) = text := by
  rw [spanOf, ← List.flatMap_map, map_lexemesFrom, flatMap_lexemes]

end Streams

section Tokens
variable {c : Char} {rest consumed text : Text} {lexeme : Lexeme} {symbols : List Symbol}

/-- Every character belongs to a lexeme that a rule matches. -/
def Sound (text : Text) : Prop := ∀ lexeme ∈ lexemes text, lexeme.kind ≠ .illegal

/-- No integer is longer than the limit. -/
def Brief (text : Text) : Prop :=
  ∀ lexeme ∈ lexemes text, lexeme.kind = .integer → lexeme.text.length ≤ numeralLimit

theorem fault?_eq_none_of_brief (legal : lexeme.kind ≠ .illegal)
    (brief : lexeme.kind = .integer → lexeme.text.length ≤ numeralLimit) (loc : Position) :
    lexeme.fault? loc = none := by
  unfold Lexeme.fault?
  split
  · exact absurd ‹_› legal
  · rw [if_neg (Nat.not_lt_of_le (brief ‹_›))]
  · rfl

theorem symbol?_of_filled (filled : lexeme.kind ≠ .blank) (legal : lexeme.kind ≠ .illegal) :
    ∃ symbol, lexeme.symbol? = some symbol := by
  unfold Lexeme.symbol?
  split
  · exact absurd ‹_› filled
  · exact absurd ‹_› legal
  all_goals exact ⟨_, rfl⟩

theorem symbol?_of_blank (blank : lexeme.kind = .blank) : lexeme.symbol? = none := by
  simp [Lexeme.symbol?, blank]

/-- What a text means is what its first lexeme and the rest mean. -/
theorem Means.first (means : Means (c :: rest) symbols) :
    (firstLexeme c rest).kind ≠ .illegal ∧
      (∀ loc, (firstLexeme c rest).fault? loc = none) ∧
      ∃ later, symbols = (firstLexeme c rest).symbol?.toList ++ later ∧
        Means (rest.drop (scanLexeme c rest).2) later := by
  obtain ⟨sound, spelled⟩ := means
  rw [lexemes_cons] at sound spelled
  obtain ⟨fine, sound⟩ := List.forall_mem_cons.mp sound
  refine ⟨?_, fine, _, ?_, sound, rfl⟩
  · intro illegal
    have fault := fine .start
    rw [Lexeme.fault?, illegal] at fault
    cases fault
  · rw [← spelled, List.filterMap_cons]
    cases (firstLexeme c rest).symbol? <;> rfl

/-- A text that means something holds no character without a lexeme. -/
theorem Means.sound_text (means : Means text symbols) : Sound text := by
  induction text using lexeme_induction generalizing symbols with
  | nil => simp [Sound, lexemes]
  | cons c rest ih =>
    obtain ⟨legal, -, later, -, means⟩ := means.first
    rw [Sound, lexemes_cons]
    exact List.forall_mem_cons.mpr ⟨legal, ih means⟩

theorem Means.brief (means : Means text symbols) : Brief text := by
  intro lexeme member integer
  have fine := means.sound lexeme member .start
  simpa [Lexeme.fault?, integer] using fine

/-- The lexeme that comes next begins where the one before it ends. -/
theorem advance_firstLexeme (seam : Seam consumed (c :: rest)) (origin : Position) :
    (origin.advance consumed).advance (firstLexeme c rest).text =
      origin.advance (consumed ++ (firstLexeme c rest).text) := by
  rw [advance_append]
  exact fun cut => seam cut

theorem seam_firstLexeme (consumed : Text) (c : Char) (rest : Text) :
    Seam (consumed ++ (firstLexeme c rest).text) (rest.drop (scanLexeme c rest).2) := by
  rintro ⟨last, first⟩
  refine seam_of_scanLexeme c rest ⟨?_, first⟩
  rwa [List.getLast?_append_of_ne_nil _ (by simp [firstLexeme])] at last

theorem consumed_firstLexeme (consumed : Text) (c : Char) (rest : Text) :
    consumed ++ (firstLexeme c rest).text ++ rest.drop (scanLexeme c rest).2 = consumed ++ c :: rest := by
  rw [List.append_assoc, ← (cutOff_firstLexeme c rest).whole]

/-- Where no lexeme is at fault, each that is no blank is a token at its place. -/
theorem tokens_of_stream (origin : Position) (seam : Seam consumed text) (sound : Sound text)
    (brief : Brief text) :
    ∃ tokens, Token.ofLexemes (origin.advance consumed) (lexemes text) = .ok tokens ∧
      List.Forall₂ (fun entry token => entry.2.symbol? = some token.symbol ∧
          token.loc = origin.advance ((consumed ++ text).take entry.1))
        ((lexemesFrom consumed.length text).filter (·.2.kind ≠ .blank)) tokens := by
  induction text using lexeme_induction generalizing consumed with
  | nil => exact ⟨[], by rw [lexemes]; rfl, by simp [lexemesFrom]⟩
  | cons c rest ih =>
    rw [Sound] at sound
    rw [Brief] at brief
    rw [lexemes_cons] at sound brief ⊢
    obtain ⟨legal, sound⟩ := List.forall_mem_cons.mp sound
    obtain ⟨short, brief⟩ := List.forall_mem_cons.mp brief
    obtain ⟨tokens, later, alike⟩ := ih (seam_firstLexeme consumed c rest) sound brief
    rw [consumed_firstLexeme, List.length_append] at alike
    rw [← advance_firstLexeme seam] at later
    rw [lexemesFrom_cons, Token.ofLexemes, fault?_eq_none_of_brief legal short, later, List.filter_cons]
    by_cases blank : (firstLexeme c rest).kind = .blank
    · rw [if_neg (by simpa using blank), symbol?_of_blank blank]
      exact ⟨tokens, rfl, alike⟩
    · obtain ⟨symbol, meant⟩ := symbol?_of_filled blank legal
      rw [if_pos (by simpa using blank), meant]
      refine ⟨_, rfl, .cons ⟨meant, ?_⟩ alike⟩
      rw [List.take_left]

theorem ofLexemes_of_error {loc : Position} {more : List Lexeme} {fault : TokenFault}
    (sound : lexeme.fault? loc = none)
    (later : Token.ofLexemes (loc.advance lexeme.text) more = .error fault) :
    Token.ofLexemes loc (lexeme :: more) = .error fault := by
  rw [Token.ofLexemes, sound, later]

/-- The first lexeme that is no token stops the reading at its place. -/
theorem refused_of_stream (origin : Position) {before after : List (Nat × Lexeme)} {index : Nat}
    (seam : Seam consumed text) (brief : Brief text)
    (split : lexemesFrom consumed.length text = before ++ (index, ⟨.illegal, [c]⟩) :: after)
    (legal : ∀ entry ∈ before, entry.2.kind ≠ .illegal) :
    Token.ofLexemes (origin.advance consumed) (lexemes text) =
      .error (.illegal c (origin.advance ((consumed ++ text).take index))) := by
  induction text using lexeme_induction generalizing consumed before with
  | nil => simp [lexemesFrom] at split
  | cons d rest ih =>
    rw [Brief] at brief
    rw [lexemes_cons] at brief ⊢
    rw [lexemesFrom_cons] at split
    cases before with
    | nil =>
      simp only [List.nil_append, List.cons.injEq, Prod.mk.injEq] at split
      obtain ⟨⟨rfl, first⟩, -⟩ := split
      rw [first, Token.ofLexemes, List.take_left]
      rfl
    | cons entry before =>
      rw [List.cons_append, List.cons.injEq, ← List.length_append] at split
      obtain ⟨rfl, split⟩ := split
      obtain ⟨first, legal⟩ := List.forall_mem_cons.mp legal
      obtain ⟨short, brief⟩ := List.forall_mem_cons.mp brief
      have later := ih (seam_firstLexeme consumed d rest) brief split legal
      rw [consumed_firstLexeme, ← advance_firstLexeme seam] at later
      exact ofLexemes_of_error (fault?_eq_none_of_brief first short _) later

/-- Of the lexemes that are no tokens, if there are any, one is the first. -/
theorem first_illegal (faulty : ¬Sound text) :
    ∃ before index c after, lexemesFrom 0 text = before ++ (index, ⟨.illegal, [c]⟩) :: after ∧
      ∀ entry ∈ before, entry.2.kind ≠ .illegal := by
  simp only [Sound, not_forall, not_not] at faulty
  obtain ⟨lexeme, member, illegal⟩ := faulty
  rw [← map_lexemesFrom 0, List.mem_map] at member
  obtain ⟨entry, member, rfl⟩ := member
  have found : ((lexemesFrom 0 text).find? (·.2.kind = .illegal)).isSome :=
    List.find?_isSome.mpr ⟨entry, member, by simpa using illegal⟩
  obtain ⟨⟨index, first⟩, found⟩ := Option.isSome_iff_exists.mp found
  obtain ⟨illegal, before, after, split, legal⟩ := List.find?_eq_some_iff_append.mp found
  obtain ⟨-, cut⟩ := cutOff_of_lexemesFrom split
  obtain ⟨c, single⟩ := List.length_eq_one_iff.mp (cut.unruled (by simpa using illegal)).2
  obtain ⟨kind, text⟩ := first
  obtain rfl : kind = .illegal := by simpa using illegal
  obtain rfl : text = [c] := single
  exact ⟨before, index, c, after, split, fun entry member => by simpa using legal entry member⟩

end Tokens

/-- The lexer is lossless and takes as much as the rules let it. The lexemes of a
text make it up, each cut off at the index that those before it lead to. Reading
tokens stops at the first character that no rule matches, at its position, and
fails for nothing else as long as integers are brief; otherwise every lexeme but
the blanks is a token. -/
theorem lexer_lossless_maximal (text : Text) :
    spanOf (lexemesFrom 0 text) = text ∧
    (∀ before index lexeme after, lexemesFrom 0 text = before ++ (index, lexeme) :: after →
      index = (spanOf before).length ∧
        lexeme.CutOff (text.drop index) (text.drop (index + lexeme.text.length))) ∧
    (Brief text → ∀ loc,
      (∀ fault, tokenize text loc = .error fault ↔
        ∃ before index c after, lexemesFrom 0 text = before ++ (index, ⟨.illegal, [c]⟩) :: after ∧
          (∀ entry ∈ before, entry.2.kind ≠ .illegal) ∧
          fault = .illegal c (loc.advance (text.take index))) ∧
      (Sound text → ∃ tokens, tokenize text loc = .ok tokens ∧
        List.Forall₂ (fun entry token => entry.2.symbol? = some token.symbol ∧
            token.loc = loc.advance (text.take entry.1))
          ((lexemesFrom 0 text).filter (·.2.kind ≠ .blank)) tokens)) := by
  refine ⟨spanOf_lexemesFrom 0 text, fun _ _ _ _ => cutOff_of_lexemesFrom, ?_⟩
  intro brief loc
  have seam : Seam [] text := by simp [Seam]
  have refused (before index c after)
      (split : lexemesFrom 0 text = before ++ (index, ⟨.illegal, [c]⟩) :: after)
      (legal : ∀ entry ∈ before, entry.2.kind ≠ .illegal) :
      tokenize text loc = .error (.illegal c (loc.advance (text.take index))) := by
    have refused := refused_of_stream loc seam brief split legal
    rwa [Position.advance] at refused
  have accepted := fun sound : Sound text => tokens_of_stream loc seam sound brief
  rw [Position.advance] at accepted
  refine ⟨fun fault => ⟨fun failed => ?_, ?_⟩, accepted⟩
  · by_cases sound : Sound text
    · obtain ⟨tokens, read, -⟩ := accepted sound
      rw [tokenize, read] at failed
      cases failed
    · obtain ⟨before, index, c, after, split, legal⟩ := first_illegal sound
      rw [refused before index c after split legal] at failed
      cases failed
      exact ⟨before, index, c, after, split, legal, rfl⟩
  · rintro ⟨before, index, c, after, split, legal, rfl⟩
    exact refused before index c after split legal

/-- A quotation mark that nothing closes is where the reading stops. -/
theorem lexer_stops_at_mark : Brief ['k', ':', '\x22', 'a', 'b'] ∧
    tokenize ['k', ':', '\x22', 'a', 'b'] .start = .error (.illegal '\x22' ⟨1, 3⟩) := by
  have stream : lexemesFrom 0 ['k', ':', '\x22', 'a', 'b'] =
      [(0, ⟨.name, ['k']⟩), (1, ⟨.colon, [':']⟩)] ++
        (2, ⟨.illegal, ['\x22']⟩) :: [(3, ⟨.name, ['a', 'b']⟩)] := by
    rw [lexemesFrom_cons]
    change (0, ⟨.name, ['k']⟩) :: lexemesFrom 1 [':', '\x22', 'a', 'b'] = _
    rw [lexemesFrom_cons]
    change _ :: (1, ⟨.colon, [':']⟩) :: lexemesFrom 2 ['\x22', 'a', 'b'] = _
    rw [lexemesFrom_cons]
    change _ :: _ :: (2, ⟨.illegal, ['\x22']⟩) :: lexemesFrom 3 ['a', 'b'] = _
    rw [lexemesFrom_cons]
    change _ :: _ :: _ :: (3, ⟨.name, ['a', 'b']⟩) :: lexemesFrom 5 [] = _
    rw [lexemesFrom]
    rfl
  have brief : Brief ['k', ':', '\x22', 'a', 'b'] := by
    rw [Brief, ← map_lexemesFrom 0, stream]
    simp
  refine ⟨brief, (((lexer_lossless_maximal _).2.2 brief .start).1 _).mpr ?_⟩
  exact ⟨_, 2, '\x22', _, stream, by simp, rfl⟩

end Regen.Header
