import Regen.Proofs.HeaderTokens
import Regen.Proofs.LexemeBoundaries

/-! Directive headers as they may be written, and what is read from them. A
printed header says which directive it is and how it is laid out: the blanks and
commas around its tokens and the quotation marks of its texts. What is read is
the directive alone, whatever the layout. -/
namespace Regen.Header

/-- A letter or underscore, followed by any of those and digits. -/
structure Identifier where
  first : Char
  rest : Text
  begins : isNameStart first = true
  continues : rest.all isNameChar = true

def Identifier.text (name : Identifier) : Text := name.first :: name.rest

/-- An identifier is made of the characters of names. -/
theorem Identifier.not_mem {c : Char} (name : Identifier) (other : isNameChar c = false) :
    c ∉ name.text := by
  have start : isNameStart c = false := (Bool.or_eq_false_iff.mp other).1
  intro member
  rcases List.mem_cons.mp member with rfl | later
  · exact absurd (start.symm.trans name.begins) Bool.false_ne_true
  · exact absurd (other.symm.trans (List.all_eq_true.mp name.continues c later)) Bool.false_ne_true

/-- The name as a value. -/
def Identifier.word (name : Identifier) : String := String.ofList name.text

/-- An identifier that is not read as a truth value. -/
structure Name extends Identifier where
  notTrue : toIdentifier.text ≠ "true".toList
  notFalse : toIdentifier.text ≠ "false".toList

/-- Blanks and commas, in any number. -/
structure Gap where
  text : Text
  blank : text.all isSeparator = true

/-- A gap that is there, as between a value and the key after it. -/
structure Space extends Gap where
  filled : text ≠ []

/-- A colon and the gaps around it. -/
structure Colon where
  before : Gap
  after : Gap

inductive Quotes where
  | double
  | single

def Quotes.mark : Quotes → Char
  | .double => '\x22'
  | .single => '\x27'

theorem Quotes.mark_ne (quotes : Quotes) : quotes.mark ≠ '\\' := by
  cases quotes <;> decide

def Quotes.kind : Quotes → LexemeKind
  | .double => .doubleQuoted
  | .single => .singleQuoted

/-- What stands between the quotation marks for a text. The angle bracket is
escaped as well, so that the text never closes the comment it is in. -/
def escape (mark : Char) : Text → Text
  | [] => []
  | c :: rest =>
    if c = mark ∨ c = '\\' ∨ c = '>' then '\\' :: c :: escape mark rest else c :: escape mark rest

/-- A value and how it is written. -/
inductive PrintedValue where
  | quoted (quotes : Quotes) (s : String)
  | integer (n : Nat) (short : (Nat.toDigits 10 n).length ≤ numeralLimit)
  | bool (b : Bool)
  | reference (name : Identifier)

namespace PrintedValue

def text : PrintedValue → Text
  | .quoted quotes s => quotes.mark :: (escape quotes.mark s.toList ++ [quotes.mark])
  | .integer n _ => Nat.toDigits 10 n
  | .bool b => if b then "true".toList else "false".toList
  | .reference name => '$' :: name.text

def symbol : PrintedValue → Symbol
  | .quoted _ s => .text s
  | .integer n _ => .integer n
  | .bool b => .bool b
  | .reference name => .variable name.word

/-- The value itself. -/
def literal : PrintedValue → Literal
  | .quoted _ s => .text s
  | .integer n _ => .integer n
  | .bool b => .bool b
  | .reference name => .variable name.word

theorem literal?_symbol (value : PrintedValue) : value.symbol.literal? = some value.literal := by
  cases value <;> rfl

end PrintedValue

/-- A parameter and how it is written after what stands before it. -/
structure PrintedParam where
  gap : Space
  key : Name
  colon : Colon
  value : PrintedValue

/-- The name of a directive, which its two markers repeat in layouts of their own. -/
structure PrintedName where
  namespaceName : Name
  action : Name

/-- How the header of a block start is laid out, and its parameters. -/
structure PrintedStart where
  lead : Gap
  colon : Colon
  params : List PrintedParam
  trail : Gap

/-- How the header of a block end is laid out. -/
structure PrintedStop where
  lead : Gap
  slash : Gap
  colon : Colon
  trail : Gap

def Colon.text (colon : Colon) : Text := colon.before.text ++ ':' :: colon.after.text

def PrintedParam.text (param : PrintedParam) : Text :=
  param.gap.text ++ (param.key.text ++ (param.colon.text ++ param.value.text))

def PrintedParam.symbols (param : PrintedParam) : List Symbol :=
  [.identifier param.key.word, .colon, param.value.symbol]

/-- The key and the value, which is all that a parameter means. -/
def PrintedParam.entry (param : PrintedParam) : String × Literal :=
  (param.key.word, param.value.literal)

/-- The key and the value of a parameter that has been read. -/
def Parameter.entry (param : Parameter) : String × Literal := (param.key, param.value)

def PrintedName.text (name : PrintedName) (colon : Colon) : Text :=
  name.namespaceName.text ++ (colon.text ++ name.action.text)

def PrintedName.symbols (name : PrintedName) : List Symbol :=
  [.identifier name.namespaceName.word, .colon, .identifier name.action.word]

/-- The name that is read. -/
def PrintedName.actionName (name : PrintedName) : ActionName :=
  ⟨name.namespaceName.word, name.action.word⟩

def PrintedStart.text (header : PrintedStart) (name : PrintedName) : Text :=
  header.lead.text ++
    (name.text header.colon ++ (header.params.flatMap PrintedParam.text ++ header.trail.text))

def PrintedStop.text (header : PrintedStop) (name : PrintedName) : Text :=
  header.lead.text ++ '/' :: (header.slash.text ++ (name.text header.colon ++ header.trail.text))

/-- What can follow a name or a number without continuing it. -/
def Delimited (rest : Text) : Prop := ∀ c ∈ rest.head?, isSeparator c = true ∨ c = ':'

/-- What can follow a gap without continuing it. -/
def Inked (rest : Text) : Prop := ∀ c ∈ rest.head?, isSeparator c = false

section Characters
variable {c : Char}

theorem isNameStart_iff : isNameStart c = true ↔
    97 ≤ c.toNat ∧ c.toNat ≤ 122 ∨ 65 ≤ c.toNat ∧ c.toNat ≤ 90 ∨ c.toNat = 95 := by
  have underscore : c = '_' ↔ c.toNat = 95 := by
    rw [← Char.toNat_inj]
    rfl
  simp only [isNameStart, Bool.or_eq_true, Bool.and_eq_true, decide_eq_true_eq, beq_iff_eq,
    underscore, or_assoc]
  rfl

theorem isAsciiDigit_iff : Text.isAsciiDigit c = true ↔ 48 ≤ c.toNat ∧ c.toNat ≤ 57 := by
  simp only [Text.isAsciiDigit, Bool.and_eq_true, decide_eq_true_eq]
  rfl

theorem not_digit_of_isNameStart (named : isNameStart c = true) : Text.isAsciiDigit c = false := by
  rw [isNameStart_iff] at named
  rw [Bool.eq_false_iff, ne_eq, isAsciiDigit_iff]
  omega

theorem not_name_of_delimited {rest : Text} (ends : Delimited rest) :
    ∀ d ∈ rest.head?, isNameChar d = false := by
  intro d first
  rw [Bool.eq_false_iff]
  intro named
  rcases ends d first with blank | rfl
  · simp [not_separator_of_isNameChar named] at blank
  · exact absurd named (by decide)

end Characters

section Scan
variable {rest : Text}

theorem takeWhile_stops {p : Char → Bool} {run : Text} (all : run.all p = true)
    (stops : ∀ c ∈ rest.head?, p c = false) : (run ++ rest).takeWhile p = run := by
  rw [List.takeWhile_append_of_pos (List.all_eq_true.mp all)]
  cases rest with
  | nil => simp
  | cons c rest => simp [stops c rfl]

theorem scanLexeme_gap {c : Char} {tail : Text} (blank : (c :: tail).all isSeparator = true)
    (next : Inked rest) : scanLexeme c (tail ++ rest) = (.blank, tail.length) := by
  obtain ⟨first, run⟩ := Bool.and_eq_true_iff.mp (List.all_cons.symm.trans blank)
  simp [scanLexeme, first, takeWhile_stops run next]

theorem scanLexeme_word (name : Identifier) (ends : Delimited rest) :
    scanLexeme name.first (name.rest ++ rest) =
      (if name.text = "true".toList ∨ name.text = "false".toList then .constant else .name,
        name.rest.length) := by
  have run := takeWhile_stops name.continues (not_name_of_delimited ends)
  have code := isNameStart_iff.mp name.begins
  have notDouble : name.first ≠ '\x22' := by
    intro same
    rw [same] at code
    exact absurd code (by decide)
  have notSingle : name.first ≠ '\x27' := by
    intro same
    rw [same] at code
    exact absurd code (by decide)
  simp only [scanLexeme, not_separator_of_isNameStart name.begins, not_digit_of_isNameStart name.begins,
    beq_iff_eq, notDouble, notSingle, name.begins, run, Identifier.text]
  simp only [Bool.false_eq_true, ↓reduceIte, Bool.or_eq_true, decide_eq_true_eq]
  split <;> rename_i constant <;> simp only [constant, ↓reduceIte]

theorem scanLexeme_variable (name : Identifier) (ends : Delimited rest) :
    scanLexeme '$' (name.text ++ rest) = (.variable, name.text.length) := by
  have run := takeWhile_stops name.continues (not_name_of_delimited ends)
  have dollar : isSeparator '$' = false := by decide
  have notDigit : Text.isAsciiDigit '$' = false := by decide
  have notStart : isNameStart '$' = false := by decide
  simp [scanLexeme, dollar, notDigit, notStart, Identifier.text, name.begins, run]

theorem scanLexeme_digits {c : Char} {tail : Text} (digits : (c :: tail).all Text.isAsciiDigit = true)
    (ends : Delimited rest) : scanLexeme c (tail ++ rest) = (.integer, tail.length) := by
  obtain ⟨first, run⟩ := Bool.and_eq_true_iff.mp (List.all_cons.symm.trans digits)
  have stops : ∀ d ∈ rest.head?, Text.isAsciiDigit d = false := by
    intro d member
    exact (Bool.or_eq_false_iff.mp (not_name_of_delimited ends d member)).2
  have width : digitsWidth (tail ++ rest) = tail.length := by
    rw [digitsWidth, takeWhile_stops run stops]
  simp only [scanLexeme, not_separator_of_isAsciiDigit first, first, scanNumber, width, List.drop_left,
    Bool.false_eq_true, ↓reduceIte]
  cases rest with
  | nil => rfl
  | cons d rest =>
    have notPoint : d ≠ '.' := by
      rintro rfl
      exact absurd (ends '.' rfl) (by decide)
    split
    · simp_all
    · rfl

theorem quotedWidth_escape {mark : Char} (special : mark ≠ '\\') (text : Text) :
    quotedWidth mark (escape mark text ++ mark :: rest) = some ((escape mark text).length + 1) := by
  induction text with
  | nil => cases rest <;> simp [escape, quotedWidth, special]
  | cons c text ih =>
    by_cases escaped : c = mark ∨ c = '\\' ∨ c = '>'
    · simp [escape, escaped, quotedWidth, ih]
    · rw [escape, if_neg escaped, List.cons_append]
      simp only [not_or] at escaped
      rw [quotedWidth]
      · simp [escaped, ih]
      · simp [escaped]

theorem scanLexeme_quoted (quotes : Quotes) (text : Text) :
    scanLexeme quotes.mark (escape quotes.mark text ++ [quotes.mark] ++ rest) =
      (quotes.kind, (escape quotes.mark text ++ [quotes.mark]).length) := by
  have width : quotedWidth quotes.mark (escape quotes.mark text ++ quotes.mark :: rest) = _ :=
    quotedWidth_escape quotes.mark_ne text
  rw [List.append_assoc, List.singleton_append, List.length_append, List.length_singleton]
  cases quotes with
  | double =>
    have blank : isSeparator '\x22' = false := by decide
    have digit : Text.isAsciiDigit '\x22' = false := by decide
    simp only [Quotes.mark] at width ⊢
    simp [scanLexeme, blank, digit, width, Quotes.kind]
  | single =>
    have blank : isSeparator '\x27' = false := by decide
    have digit : Text.isAsciiDigit '\x27' = false := by decide
    simp only [Quotes.mark] at width ⊢
    simp [scanLexeme, blank, digit, width, Quotes.kind]

end Scan

theorem unescape_escape (quotes : Quotes) (text : Text) :
    unescape (escape quotes.mark text) = text := by
  induction text with
  | nil => rfl
  | cons c text ih =>
    by_cases escaped : c = quotes.mark ∨ c = '\\' ∨ c = '>'
    · have itself : escapeMeaning c = c := by
        rcases escaped with rfl | rfl | rfl
        · cases quotes <;> rfl
        · rfl
        · rfl
      simp [escape, escaped, unescape, itself, ih]
    · rw [escape, if_neg escaped]
      simp only [not_or] at escaped
      rw [unescape, ih]
      simp [escaped]

theorem digitsValue_toDigits (n : Nat) : Decimal.digitsValue (Nat.toDigits 10 n) = n := by
  have value : Nat.ofDigitChars 10 (Nat.toDigits 10 n) 0 = n := Nat.ofDigitChars_ten_toDigits
  rw [Nat.ofDigitChars_eq_foldl] at value
  simpa [Decimal.digitsValue, Nat.mul_comm] using value

theorem isAsciiDigit_of_mem_toDigits {n : Nat} {c : Char} (member : c ∈ Nat.toDigits 10 n) :
    Text.isAsciiDigit c = true := by
  have digit := Nat.isDigit_of_mem_toDigits (by decide) (by decide) member
  exact isAsciiDigit_iff.mpr (Char.isDigit_iff_toNat.mp digit)

/-- A text holds no character at fault and no integer that is too long, and its
tokens have these symbols. -/
structure Means (text : Text) (symbols : List Symbol) : Prop where
  sound : ∀ lexeme ∈ lexemes text, ∀ loc, lexeme.fault? loc = none
  spelled : (lexemes text).filterMap Lexeme.symbol? = symbols

section Means
variable {rest : Text} {symbols : List Symbol}

theorem Means.nil : Means [] [] := by
  constructor <;> simp [lexemes]

/-- One lexeme in front of a text that does not continue it. -/
theorem Means.lexeme {kind : LexemeKind} {c : Char} {tail : Text}
    (cut : scanLexeme c (tail ++ rest) = (kind, tail.length))
    (sound : ∀ loc, Lexeme.fault? ⟨kind, c :: tail⟩ loc = none) (means : Means rest symbols) :
    Means (c :: tail ++ rest) ((Lexeme.symbol? ⟨kind, c :: tail⟩).toList ++ symbols) := by
  have first : lexemes (c :: tail ++ rest) = ⟨kind, c :: tail⟩ :: lexemes rest := by
    rw [List.cons_append, lexemes]
    simp [cut]
  constructor
  · intro lexeme member loc
    rw [first] at member
    rcases List.mem_cons.mp member with rfl | member
    · exact sound loc
    · exact means.sound lexeme member loc
  · rw [first, List.filterMap_cons, means.spelled]
    cases Lexeme.symbol? ⟨kind, c :: tail⟩ <;> rfl

theorem Means.gap (gap : Gap) (next : Inked rest) (means : Means rest symbols) :
    Means (gap.text ++ rest) symbols := by
  obtain ⟨text, blank⟩ := gap
  cases text with
  | nil => exact means
  | cons c tail => exact means.lexeme (scanLexeme_gap blank next) (fun _ => rfl)

theorem Means.colonMark (means : Means rest symbols) : Means (':' :: rest) (.colon :: symbols) := by
  have cut : scanLexeme ':' ([] ++ rest) = (.colon, ([] : Text).length) := rfl
  exact means.lexeme cut (fun _ => rfl)

theorem Means.slash (means : Means rest symbols) : Means ('/' :: rest) (.slash :: symbols) := by
  have cut : scanLexeme '/' ([] ++ rest) = (.slash, ([] : Text).length) := rfl
  exact means.lexeme cut (fun _ => rfl)

theorem Means.name (name : Name) (ends : Delimited rest) (means : Means rest symbols) :
    Means (name.text ++ rest) (.identifier name.word :: symbols) := by
  have cut := scanLexeme_word name.toIdentifier ends
  rw [if_neg (not_or.mpr ⟨name.notTrue, name.notFalse⟩)] at cut
  exact means.lexeme cut (fun _ => rfl)

theorem Means.value (value : PrintedValue) (ends : Delimited rest) (means : Means rest symbols) :
    Means (value.text ++ rest) (value.symbol :: symbols) := by
  cases value with
  | quoted quotes s =>
    have sound : ∀ loc,
        Lexeme.fault? ⟨quotes.kind, (PrintedValue.quoted quotes s).text⟩ loc = none := by
      cases quotes <;> exact fun _ => rfl
    have symbol : Lexeme.symbol? ⟨quotes.kind, (PrintedValue.quoted quotes s).text⟩ =
        some (.text s) := by
      have inside := congrArg String.ofList (unescape_escape quotes s.toList)
      cases quotes <;> simpa [Lexeme.symbol?, PrintedValue.text, Quotes.kind] using inside
    have means := means.lexeme (scanLexeme_quoted quotes s.toList) sound
    rw [PrintedValue.text] at symbol
    rwa [symbol] at means
  | integer n short =>
    have digits : (Nat.toDigits 10 n).all Text.isAsciiDigit = true :=
      List.all_eq_true.mpr fun d => isAsciiDigit_of_mem_toDigits
    have value := digitsValue_toDigits n
    simp only [PrintedValue.text, PrintedValue.symbol]
    cases written : Nat.toDigits 10 n with
    | nil => exact absurd written Nat.toDigits_ne_nil
    | cons c tail =>
      rw [written] at digits value short
      have sound : ∀ loc, Lexeme.fault? ⟨.integer, c :: tail⟩ loc = none := by
        intro loc
        exact if_neg (Nat.not_lt_of_le short)
      have means := means.lexeme (scanLexeme_digits digits ends) sound
      rwa [Lexeme.symbol?, value] at means
  | bool b =>
    cases b with
    | true =>
      have cut := scanLexeme_word ⟨'t', ['r', 'u', 'e'], rfl, rfl⟩ ends
      exact means.lexeme cut (fun _ => rfl)
    | false =>
      have cut := scanLexeme_word ⟨'f', ['a', 'l', 's', 'e'], rfl, rfl⟩ ends
      exact means.lexeme cut (fun _ => rfl)
  | reference name => exact means.lexeme (scanLexeme_variable name ends) (fun _ => rfl)

theorem delimited_gap (gap : Gap) (next : gap.text = [] → Delimited rest) :
    Delimited (gap.text ++ rest) := by
  obtain ⟨text, blank⟩ := gap
  cases text with
  | nil => exact next rfl
  | cons c tail =>
    rintro d first
    cases first
    exact Or.inl (List.all_eq_true.mp blank c List.mem_cons_self)

theorem delimited_space (space : Space) : Delimited (space.text ++ rest) :=
  delimited_gap space.toGap fun none => absurd none space.filled

theorem delimited_colon (colon : Colon) : Delimited (colon.text ++ rest) := by
  rw [Colon.text, List.append_assoc]
  apply delimited_gap
  rintro - d first
  cases first
  exact Or.inr rfl

theorem inked_identifier (name : Identifier) : Inked (name.text ++ rest) := by
  rintro d first
  cases first
  exact not_separator_of_isNameStart name.begins

theorem inked_value (value : PrintedValue) : Inked (value.text ++ rest) := by
  cases value with
  | quoted quotes s =>
    rintro d first
    cases first
    cases quotes <;> decide
  | integer n short =>
    cases written : Nat.toDigits 10 n with
    | nil => exact absurd written Nat.toDigits_ne_nil
    | cons c tail =>
      rw [PrintedValue.text, written]
      rintro d first
      cases first
      apply not_separator_of_isAsciiDigit
      exact isAsciiDigit_of_mem_toDigits (written ▸ List.mem_cons_self)
  | bool b =>
    rintro d first
    cases b <;> cases first <;> decide
  | reference name =>
    rintro d first
    cases first
    decide

theorem Means.colon (colon : Colon) (next : Inked rest) (means : Means rest symbols) :
    Means (colon.text ++ rest) (.colon :: symbols) := by
  have mark : Means (':' :: (colon.after.text ++ rest)) (.colon :: symbols) :=
    (means.gap colon.after next).colonMark
  rw [Colon.text, List.append_assoc]
  refine mark.gap colon.before ?_
  rintro d first
  cases first
  decide

theorem Means.printedName (name : PrintedName) (colon : Colon) (ends : Delimited rest)
    (means : Means rest symbols) : Means (name.text colon ++ rest) (name.symbols ++ symbols) := by
  rw [PrintedName.text, List.append_assoc, List.append_assoc]
  have action := means.name name.action ends
  have after := action.colon colon (inked_identifier name.action.toIdentifier)
  exact after.name name.namespaceName (delimited_colon colon)

theorem Means.param (param : PrintedParam) (ends : Delimited rest) (means : Means rest symbols) :
    Means (param.text ++ rest) (param.symbols ++ symbols) := by
  simp only [PrintedParam.text, List.append_assoc]
  have value := means.value param.value ends
  have after := value.colon param.colon (inked_value param.value)
  have key := after.name param.key (delimited_colon param.colon)
  exact key.gap param.gap.toGap (inked_identifier param.key.toIdentifier)

/-- Parameters up to the end of a header begin with a gap, unless it ends there. -/
theorem delimited_params (params : List PrintedParam) (trail : Gap) :
    Delimited (params.flatMap PrintedParam.text ++ trail.text) := by
  cases params with
  | nil =>
    have ends : Delimited [] := by simp [Delimited]
    simpa using delimited_gap trail fun _ => ends
  | cons param params =>
    simp only [List.flatMap_cons, PrintedParam.text, List.append_assoc]
    exact delimited_space param.gap

theorem means_params (params : List PrintedParam) (trail : Gap) :
    Means (params.flatMap PrintedParam.text ++ trail.text) (params.flatMap PrintedParam.symbols) := by
  induction params with
  | nil => simpa using Means.nil.gap trail (by simp [Inked])
  | cons param params ih =>
    rw [List.flatMap_cons, List.append_assoc]
    exact ih.param param (delimited_params params trail)

theorem PrintedStart.means (header : PrintedStart) (name : PrintedName) :
    Means (header.text name) (name.symbols ++ header.params.flatMap PrintedParam.symbols) := by
  have params := means_params header.params header.trail
  have named := params.printedName name header.colon (delimited_params header.params header.trail)
  refine named.gap header.lead ?_
  rw [PrintedName.text, List.append_assoc]
  exact inked_identifier name.namespaceName.toIdentifier

theorem PrintedStop.means (header : PrintedStop) (name : PrintedName) :
    Means (header.text name) (.slash :: name.symbols) := by
  have trail : Means (name.text header.colon ++ header.trail.text) name.symbols := by
    simpa using (means_params [] header.trail).printedName name header.colon
      (delimited_params [] header.trail)
  have named := trail.gap header.slash (by
    rw [PrintedName.text, List.append_assoc]
    exact inked_identifier name.namespaceName.toIdentifier)
  refine named.slash.gap header.lead ?_
  rintro d first
  cases first
  decide

theorem ofLexemes_of_sound (lexemes : List Lexeme)
    (sound : ∀ lexeme ∈ lexemes, ∀ loc, lexeme.fault? loc = none) (loc : Position) :
    ∃ tokens, Token.ofLexemes loc lexemes = .ok tokens ∧
      tokens.map Token.symbol = lexemes.filterMap Lexeme.symbol? := by
  induction lexemes generalizing loc with
  | nil => exact ⟨[], rfl, rfl⟩
  | cons lexeme more ih =>
    obtain ⟨tokens, read, spelled⟩ :=
      ih (fun later member => sound later (List.mem_cons_of_mem _ member)) (loc.advance lexeme.text)
    rw [Token.ofLexemes, sound lexeme List.mem_cons_self, List.filterMap_cons]
    cases meant : lexeme.symbol? with
    | none => exact ⟨tokens, by simp [read], by simp [spelled]⟩
    | some symbol => exact ⟨⟨symbol, loc⟩ :: tokens, by simp [read], by simp [spelled]⟩

/-- Wherever a text stands, its tokens have the symbols it means. -/
theorem Means.tokenize {text : Text} (means : Means text symbols) (loc : Position) :
    ∃ tokens, Header.tokenize text loc = .ok tokens ∧ tokens.map Token.symbol = symbols := by
  rw [← means.spelled]
  exact ofLexemes_of_sound (lexemes text) means.sound loc

end Means

section Grammar
variable {tokens : List Token}

theorem parseParams_of_symbols (params : List PrintedParam)
    (spelled : tokens.map Token.symbol = params.flatMap PrintedParam.symbols) :
    ∃ read, parseParams tokens = .ok read ∧
      read.map Parameter.entry = params.map PrintedParam.entry := by
  induction params generalizing tokens with
  | nil =>
    obtain rfl := List.map_eq_nil_iff.mp spelled
    exact ⟨[], rfl, rfl⟩
  | cons param params ih =>
    simp only [List.flatMap_cons, PrintedParam.symbols, List.cons_append, List.nil_append,
      List.map_eq_cons_iff] at spelled
    obtain ⟨⟨_, loc⟩, _, rfl, rfl, ⟨_, _⟩, _, rfl, rfl, ⟨_, _⟩, more, rfl, rfl, spelled⟩ := spelled
    obtain ⟨read, parsed, entries⟩ := ih spelled
    refine ⟨⟨param.key.word, param.value.literal, loc⟩ :: read, ?_, ?_⟩
    · simp [parseParams, param.value.literal?_symbol, parsed]
    · simp [entries, Parameter.entry, PrintedParam.entry]

theorem parseName_of_symbols (namespaceName : String) (name : PrintedName) {symbols : List Symbol}
    (spelled : tokens.map Token.symbol = name.symbols ++ symbols) :
    ∃ rest, parseName namespaceName tokens = .ok (name.actionName, rest) ∧
      rest.map Token.symbol = symbols := by
  simp only [PrintedName.symbols, List.cons_append, List.nil_append, List.map_eq_cons_iff] at spelled
  obtain ⟨⟨_, _⟩, _, rfl, rfl, ⟨_, _⟩, _, rfl, rfl, ⟨_, _⟩, rest, rfl, rfl, spelled⟩ := spelled
  exact ⟨rest, rfl, spelled⟩

/-- The header of a block start is read back from its tokens. -/
theorem parse_of_start (namespaceName : String) (name : PrintedName) (params : List PrintedParam)
    (spelled : tokens.map Token.symbol = name.symbols ++ params.flatMap PrintedParam.symbols) :
    ∃ read, parse namespaceName tokens = .ok (.start name.actionName read) ∧
      read.map Parameter.entry = params.map PrintedParam.entry := by
  obtain ⟨rest, named, params'⟩ := parseName_of_symbols namespaceName name spelled
  obtain ⟨read, parsed, entries⟩ := parseParams_of_symbols params params'
  refine ⟨read, ?_, entries⟩
  unfold parse
  split
  · cases spelled
  · exact bind_eq_ok_iff.mpr ⟨_, named, bind_eq_ok_iff.mpr ⟨_, parsed, rfl⟩⟩

theorem parse_of_stop (namespaceName : String) (name : PrintedName)
    (spelled : tokens.map Token.symbol = .slash :: name.symbols) :
    parse namespaceName tokens = .ok (.stop name.actionName) := by
  obtain ⟨⟨_, loc⟩, after, rfl, rfl, written⟩ := List.map_eq_cons_iff.mp spelled
  rw [← List.append_nil name.symbols] at written
  obtain ⟨rest, named, nothing⟩ := parseName_of_symbols namespaceName name written
  obtain rfl := List.map_eq_nil_iff.mp nothing
  exact bind_eq_ok_iff.mpr ⟨_, named, bind_eq_ok_iff.mpr ⟨[], rfl, rfl⟩⟩

end Grammar

end Regen.Header
