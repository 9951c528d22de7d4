import Regen.Header.Lexeme
import Regen.Position
import Regen.Value

/-! Tokens of a directive header: its meaningful lexemes with their values
decoded and the positions where they stand. -/
namespace Regen.Header

/-- A token without its position. -/
inductive Symbol where
  | identifier (name : String)
  | text (s : String)
  | integer (n : Nat)
  | float (x : Binary64)
  | bool (b : Bool)
  | variable (name : String)
  | colon
  | slash
deriving DecidableEq, Repr

structure Token where
  symbol : Symbol
  loc : Position
deriving DecidableEq, Repr

/-- Why a header has no tokens: a character that begins no lexeme, or an
integer beyond the limit. -/
inductive TokenFault where
  | illegal (c : Char) (loc : Position)
  | numeralTooLong (digits : Nat)
deriving DecidableEq, Repr

/-- What an escaped character stands for; any other than these for itself. -/
def escapeMeaning (c : Char) : Char :=
  if c == 's' then ' '
  else if c == 't' then '\t'
  else if c == 'r' then '\r'
  else if c == 'n' then '\n'
  else c

/-- The text that the inside of a quoted lexeme stands for. -/
def unescape : Text → Text
  | '\\' :: c :: rest => escapeMeaning c :: unescape rest
  | c :: rest => c :: unescape rest
  | [] => []

/-- The symbol of a lexeme; blanks have none. -/
def Lexeme.symbol? (lexeme : Lexeme) : Option Symbol :=
  match lexeme.kind with
  | .blank => none
  | .illegal => none
  | .float => some (.float (Decimal.read lexeme.text))
  | .integer => some (.integer (Decimal.digitsValue lexeme.text))
  | .doubleQuoted => some (.text (String.ofList (unescape (lexeme.text.drop 1).dropLast)))
  | .singleQuoted => some (.text (String.ofList (unescape (lexeme.text.drop 1).dropLast)))
  | .constant => some (.bool (lexeme.text == "true".toList))
  | .variable => some (.variable (String.ofList (lexeme.text.drop 1)))
  | .name => some (.identifier (String.ofList lexeme.text))
  | .colon => some .colon
  | .slash => some .slash

/-- The fault of a lexeme at a position, if it has one. -/
def Lexeme.fault? (lexeme : Lexeme) (loc : Position) : Option TokenFault :=
  match lexeme.kind, lexeme.text with
  | .illegal, c :: _ => some (.illegal c loc)
  | .integer, digits =>
    if numeralLimit < digits.length then some (.numeralTooLong digits.length) else none
  | _, _ => none

/-- The tokens of lexemes the first of which stands at `loc`, or the first fault. -/
def Token.ofLexemes (loc : Position) : List Lexeme → Except TokenFault (List Token)
  | [] => .ok []
  | lexeme :: more =>
    match lexeme.fault? loc with
    | some fault => .error fault
    | none =>
      match Token.ofLexemes (loc.advance lexeme.text) more, lexeme.symbol? with
      | .ok tokens, some symbol => .ok (⟨symbol, loc⟩ :: tokens)
      | outcome, _ => outcome

/-- The tokens of a header that begins at `loc`. -/
def tokenize (text : Text) (loc : Position) : Except TokenFault (List Token) :=
  Token.ofLexemes loc (lexemes text)

/-- A token as complaints about it have it: close to how it is written. -/
def Symbol.describe : Symbol → String
  | .identifier name => s!"'{name}'"
  | .text s => quote s
  | .integer n => s!"'{n}'"
  | .float x => "'" ++ (Value.float x).shown ++ "'"
  | .bool b => if b then "'true'" else "'false'"
  | .variable name => s!"'${name}'"
  | .colon => "':'"
  | .slash => "'/'"

/-- The complaint about an integer beyond the limit. -/
def numeralTooLongMessage (digits : Nat) : String :=
  s!"Exceeds the limit ({numeralLimit} digits) for integer string conversion: " ++
    s!"value has {digits} digits; use sys.set_int_max_str_digits() to increase the limit"

end Regen.Header
