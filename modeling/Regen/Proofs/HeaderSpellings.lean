import Regen.Proofs.MarkerHeaders
import Regen.Proofs.Separators

/-! Short names of actions. A header can leave out the namespace and begin with the
colon, behind the blanks and the slash that may stand there. It is read as the header
that has the default namespace in front of that colon. -/
namespace Regen
namespace Header

/-- What stands in front of the name of an action: blanks, and at the end of a block a
slash and blanks after it. -/
inductive Lead where
  | start (gap : Gap)
  | stop (gap after : Gap)

namespace Lead

def text : Lead → Text
  | .start gap => gap.text
  | .stop gap after => gap.text ++ '/' :: after.text

def symbols : Lead → List Symbol
  | .start _ => []
  | .stop _ _ => [.slash]

theorem dashless (lead : Lead) : '-' ∉ lead.text := by
  have gapless (gap : Gap) : '-' ∉ gap.text := fun member =>
    absurd (List.all_eq_true.mp gap.blank _ member) (by decide)
  cases lead with
  | start gap => exact gapless gap
  | stop gap after => simp [text, gapless]

end Lead

/-- The symbols of a header, where it has any. -/
def symbols? (text : Text) : Option (List Symbol) :=
  (tokenize text .start).toOption.map (List.map Token.symbol)

section Symbols
variable {text rest : Text} {symbols : List Symbol}

theorem symbols?_eq_some_iff : symbols? text = some symbols ↔ Means text symbols := by
  unfold symbols?
  constructor
  · intro found
    cases read : tokenize text .start with
    | error fault => simp [read, Except.toOption] at found
    | ok tokens =>
      simp only [read, Except.toOption, Option.map_some, Option.some.injEq] at found
      exact found ▸ means_of_tokenize read
  · intro means
    obtain ⟨tokens, read, same⟩ := means.tokenize .start
    simp [read, Except.toOption, same]

/-- The place of a header has no say in its symbols. -/
theorem symbols?_elsewhere (text : Text) (loc : Position) :
    (tokenize text loc).toOption.map (List.map Token.symbol) = symbols? text := by
  refine Option.ext fun symbols => ?_
  rw [symbols?_eq_some_iff]
  constructor
  · intro found
    cases read : tokenize text loc with
    | error fault => simp [read, Except.toOption] at found
    | ok tokens =>
      simp only [read, Except.toOption, Option.map_some, Option.some.injEq] at found
      exact found ▸ means_of_tokenize read
  · intro means
    obtain ⟨tokens, read, same⟩ := means.tokenize loc
    simp [read, Except.toOption, same]

/-- A lexeme in front of a text that does not continue it adds its own symbol. -/
theorem symbols?_lexeme {kind : LexemeKind} {c : Char} {tail : Text}
    (cut : scanLexeme c (tail ++ rest) = (kind, tail.length))
    (sound : ∀ loc, Lexeme.fault? ⟨kind, c :: tail⟩ loc = none) :
    symbols? (c :: tail ++ rest) =
      (symbols? rest).map ((Lexeme.symbol? ⟨kind, c :: tail⟩).toList ++ ·) := by
  refine Option.ext fun symbols => ?_
  simp only [Option.map_eq_some_iff, symbols?_eq_some_iff]
  constructor
  · intro means
    rw [List.cons_append] at means
    obtain ⟨-, -, later, same, following⟩ := means.first
    simp only [firstLexeme, cut, List.take_left, List.drop_left] at same following
    exact ⟨later, following, same.symm⟩
  · rintro ⟨later, means, rfl⟩
    exact means.lexeme cut sound

@[simp] theorem symbols?_colon : symbols? (':' :: rest) = (symbols? rest).map (.colon :: ·) :=
  @symbols?_lexeme rest .colon ':' [] rfl fun _ => rfl

@[simp] theorem symbols?_slash : symbols? ('/' :: rest) = (symbols? rest).map (.slash :: ·) :=
  @symbols?_lexeme rest .slash '/' [] rfl fun _ => rfl

theorem symbols?_name (name : Name) (ends : Delimited rest) :
    symbols? (name.text ++ rest) = (symbols? rest).map (.identifier name.word :: ·) := by
  have cut := scanLexeme_word name.toIdentifier ends
  rw [if_neg (not_or.mpr ⟨name.notTrue, name.notFalse⟩)] at cut
  exact symbols?_lexeme cut fun _ => rfl

theorem symbols?_gap (gap : Gap) (next : Inked rest) : symbols? (gap.text ++ rest) = symbols? rest := by
  obtain ⟨text, blank⟩ := gap
  cases text with
  | nil => rfl
  | cons c tail =>
    rw [symbols?_lexeme (scanLexeme_gap blank next) fun _ => rfl]
    cases symbols? rest <;> rfl

theorem symbols?_lead (lead : Lead) (next : Inked rest) :
    symbols? (lead.text ++ rest) = (symbols? rest).map (lead.symbols ++ ·) := by
  cases lead with
  | start gap =>
    rw [Lead.text, symbols?_gap gap next]
    cases symbols? rest <;> rfl
  | stop gap after =>
    have slash : Inked ('/' :: (after.text ++ rest)) := by
      rintro c ⟨⟩
      rfl
    rw [Lead.text, List.append_assoc, List.cons_append, symbols?_gap gap slash, symbols?_slash,
      symbols?_gap after next]
    rfl

end Symbols

/-- Tokens with these symbols; where they stand is left out. -/
def unplaced (symbols : List Symbol) : List Token := symbols.map (Token.mk · .start)

@[simp] theorem map_symbol_unplaced (symbols : List Symbol) :
    (unplaced symbols).map Token.symbol = symbols := by
  simp [unplaced, Function.comp_def]

/-- What tokens with these symbols say. -/
def said? (defaultNamespace : String) (symbols : List Symbol) :
    Option (ActionName × Option (List (String × Literal))) :=
  (parse defaultNamespace (unplaced symbols)).toOption.map entries

/-- The places of tokens have no say in what they say. -/
theorem said?_elsewhere (defaultNamespace : String) (tokens : List Token) :
    (parse defaultNamespace tokens).toOption.map entries = said? defaultNamespace (tokens.map Token.symbol) := by
  have same := map_symbol_unplaced (tokens.map Token.symbol)
  unfold said?
  cases here : parse defaultNamespace tokens with
  | ok header =>
    obtain ⟨header', read, alike⟩ := parse_elsewhere here same
    rw [read]
    exact congrArg some alike.symm
  | error fault =>
    cases there : parse defaultNamespace (unplaced (tokens.map Token.symbol)) with
    | ok header =>
      obtain ⟨header', read, -⟩ := parse_elsewhere there same.symm
      exact nomatch here.symm.trans read
    | error fault' => rfl

/-- The default namespace in front of the colon changes nothing. -/
theorem said?_named (defaultNamespace : String) (lead : Lead) (symbols : List Symbol) :
    said? defaultNamespace (lead.symbols ++ .identifier defaultNamespace :: .colon :: symbols) =
      said? defaultNamespace (lead.symbols ++ .colon :: symbols) := by
  cases lead <;> rfl

theorem namespaceName_of_colon {defaultNamespace : String} {loc : Position} {rest : List Token}
    {name : ActionName} {params : List Parameter}
    (written : WritesBody defaultNamespace (⟨.colon, loc⟩ :: rest) name params) :
    name.namespaceName = defaultNamespace := by
  cases written
  rfl

/-- An action without a namespace has the default one. -/
theorem namespaceName_of_said? {defaultNamespace : String} {lead : Lead} {symbols : List Symbol}
    {said : ActionName × Option (List (String × Literal))}
    (meant : said? defaultNamespace (lead.symbols ++ .colon :: symbols) = some said) :
    said.1.namespaceName = defaultNamespace := by
  unfold said? at meant
  cases parsed : parse defaultNamespace (unplaced (lead.symbols ++ .colon :: symbols)) with
  | error fault =>
    rw [parsed] at meant
    cases meant
  | ok header =>
    rw [parsed] at meant
    obtain rfl := Option.some.inj meant
    have written := parse_eq_ok_iff.mp parsed
    cases lead with
    | start gap =>
      cases written with
      | start body => exact namespaceName_of_colon body
    | stop gap after =>
      cases written with
      | start body => cases body
      | stop body => exact namespaceName_of_colon body

/-- What a header says, where it is read. -/
def saidBy? (defaultNamespace : String) (header : Text) :
    Option (ActionName × Option (List (String × Literal))) :=
  (symbols? header).bind (said? defaultNamespace)

theorem inked_colon (tail : Text) : Inked (':' :: tail) := by
  rintro c ⟨⟩
  rfl

theorem Identifier.inked (name : Identifier) (rest : Text) : Inked (name.text ++ rest) := by
  rintro c ⟨⟩
  exact not_separator_of_isNameStart name.begins

/-- A header says the same with the default namespace in front of its colon. -/
theorem saidBy?_named (name : Name) (lead : Lead) (tail : Text) :
    saidBy? name.word (lead.text ++ (name.text ++ ':' :: tail)) =
      saidBy? name.word (lead.text ++ ':' :: tail) := by
  have ends : Delimited (':' :: tail) := by
    rintro c ⟨⟩
    exact .inr rfl
  rw [saidBy?, saidBy?, symbols?_lead lead (name.inked _), symbols?_lead lead (inked_colon tail),
    symbols?_name name ends, symbols?_colon]
  cases symbols? tail with
  | none => rfl
  | some symbols => exact said?_named _ lead symbols

/-- A header that begins with the colon is about an action of the default namespace. -/
theorem namespaceName_of_saidBy? {defaultNamespace : String} {lead : Lead} {tail : Text}
    {said : ActionName × Option (List (String × Literal))}
    (meant : saidBy? defaultNamespace (lead.text ++ ':' :: tail) = some said) :
    said.1.namespaceName = defaultNamespace := by
  rw [saidBy?, symbols?_lead lead (inked_colon tail), symbols?_colon] at meant
  cases found : symbols? tail with
  | none => simp [found] at meant
  | some symbols =>
    rw [found] at meant
    exact namespaceName_of_said? meant

end Header

namespace Chunk
open Header

/-- What a chunk says, the text of its marker and all positions apart. -/
inductive Wording where
  | text (content : Text)
  | marker (said : ActionName × Option (List (String × Literal)))

def wording : Chunk → Wording
  | .text content _ => .text content
  | .start marker => .marker (marker.name, some (marker.params.map Parameter.entry))
  | .stop marker => .marker (marker.name, none)

/-- What a marker says is what its header does, wherever it stands. -/
theorem wording_ofMarker (settings : Settings) (file : String) (header raw : Text) (loc : Position) :
    (ofMarker settings file header raw loc).toOption.map wording =
      (saidBy? settings.actionNamespace header).map .marker := by
  rw [saidBy?, ← symbols?_elsewhere header loc, ofMarker]
  cases tokenize header loc with
  | error fault => rfl
  | ok tokens =>
    simp only [Except.toOption, Option.map_some, Option.bind_some]
    rw [← said?_elsewhere]
    cases parse settings.actionNamespace tokens with
    | error fault => rfl
    | ok said => cases said <;> rfl

end Chunk
end Regen
