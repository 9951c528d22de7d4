import Regen.Text.Blank
import Regen.Text.Digit

/-! Lexemes of a directive header, the text between the comment opener and its
closer. Each lexeme is the longest its first character can begin; cutting a
header into lexemes loses nothing, so a character that begins none is a lexeme
of its own. -/
namespace Regen.Header

/-- What a lexeme is. Blanks and commas separate and carry no meaning. -/
inductive LexemeKind where
  | blank
  | float
  | integer
  | doubleQuoted
  | singleQuoted
  | constant
  | variable
  | name
  | colon
  | slash
  | illegal
deriving DecidableEq, Repr

structure Lexeme where
  kind : LexemeKind
  text : Text
deriving DecidableEq, Repr

/-- A blank or a comma. -/
def isSeparator (c : Char) : Bool := Text.isBlank c || c == ','

/-- A character that begins a name: an ASCII letter or the underscore. -/
def isNameStart (c : Char) : Bool :=
  ('a' ≤ c && c ≤ 'z') || ('A' ≤ c && c ≤ 'Z') || c == '_'

/-- A character that continues a name. -/
def isNameChar (c : Char) : Bool := isNameStart c || Text.isAsciiDigit c

/-- The number of characters up to and including the closing quotation mark.
A backslash and the character after it stand inside the quotes, whichever it is. -/
def quotedWidth (mark : Char) : Text → Option Nat
  | [] => none
  | '\\' :: _ :: rest => (quotedWidth mark rest).map (· + 2)
  | c :: rest =>
    if c = mark then some 1
    else if c = '\\' then none
    else (quotedWidth mark rest).map (· + 1)

/-- The number of leading digits. -/
def digitsWidth (text : Text) : Nat := (text.takeWhile Text.isAsciiDigit).length

/-- The width of a sign and digits, both counted, or zero without digits. -/
def signedWidth : Text → Nat
  | '+' :: digits => if digitsWidth digits = 0 then 0 else digitsWidth digits + 1
  | '-' :: digits => if digitsWidth digits = 0 then 0 else digitsWidth digits + 1
  | digits => digitsWidth digits

/-- The width of an exponent, or zero where none stands. -/
def exponentWidth : Text → Nat
  | [] => 0
  | c :: rest =>
    if (c == 'e' || c == 'E') && signedWidth rest ≠ 0 then signedWidth rest + 1 else 0

/-- The kind of number that `rest` continues after a first digit, and how far. -/
def scanNumber (rest : Text) : LexemeKind × Nat :=
  let whole := digitsWidth rest
  match rest.drop whole with
  | '.' :: more =>
    let fraction := digitsWidth more
    if fraction = 0 then (.integer, whole)
    else (.float, whole + 1 + fraction + exponentWidth (more.drop fraction))
  | _ => (.integer, whole)

/-- The kind of lexeme that begins with `c` and the number of characters of
`rest` that belong to it. -/
def scanLexeme (c : Char) (rest : Text) : LexemeKind × Nat :=
  if isSeparator c then (.blank, (rest.takeWhile isSeparator).length)
  else if Text.isAsciiDigit c then scanNumber rest
  else if c == '\x22' then
    match quotedWidth c rest with
    | some width => (.doubleQuoted, width)
    | none => (.illegal, 0)
  else if c == '\x27' then
    match quotedWidth c rest with
    | some width => (.singleQuoted, width)
    | none => (.illegal, 0)
  else if isNameStart c then
    let name := rest.takeWhile isNameChar
    if c :: name = "true".toList || c :: name = "false".toList then (.constant, name.length)
    else (.name, name.length)
  else if c == '$' then
    match rest with
    | first :: more =>
      if isNameStart first then (.variable, (more.takeWhile isNameChar).length + 1)
      else (.illegal, 0)
    | [] => (.illegal, 0)
  else if c == ':' then (.colon, 0)
  else if c == '/' then (.slash, 0)
  else (.illegal, 0)

/-- The lexemes of a header. -/
def lexemes : Text → List Lexeme
  | [] => []
  | c :: rest =>
    let found := scanLexeme c rest
    ⟨found.1, c :: rest.take found.2⟩ :: lexemes (rest.drop found.2)
termination_by text => text.length
decreasing_by simp only [List.length_drop, List.length_cons]; omega

/-- The lexemes of a text that begins at `index`, each with the index it begins at. -/
def lexemesFrom (index : Nat) : Text → List (Nat × Lexeme)
  | [] => []
  | c :: rest =>
    let found := scanLexeme c rest
    (index, ⟨found.1, c :: rest.take found.2⟩) ::
      lexemesFrom (index + found.2 + 1) (rest.drop found.2)
termination_by text => text.length
decreasing_by simp only [List.length_drop, List.length_cons]; omega

/-- Nothing of the header is lost. -/
theorem flatMap_lexemes (text : Text) : (lexemes text).flatMap Lexeme.text = text := by
  fun_induction lexemes text with
  | case1 => rfl
  | case2 c rest found ih => simp [ih]

end Regen.Header
