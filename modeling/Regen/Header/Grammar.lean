import Regen.Header.Token

/-! The grammar of directive headers. A header is an optional slash, the name of
an action with or without its namespace, and parameters `key:value` in any
number. The slash marks the end of a block, which takes no parameters. -/
namespace Regen
namespace Header

/-- The name of an action. -/
structure ActionName where
  namespaceName : String
  action : String
deriving DecidableEq, Repr

/-- What a header may write as the value of a parameter. -/
inductive Literal where
  | text (s : String)
  | integer (n : Nat)
  | float (x : Binary64)
  | bool (b : Bool)
  | variable (name : String)
deriving DecidableEq, Repr

/-- A parameter and where its key stands. -/
structure Parameter where
  key : String
  value : Literal
  loc : Position
deriving DecidableEq, Repr

end Header

/-- The content of a directive marker. -/
inductive Header where
  | start (name : Header.ActionName) (params : List Header.Parameter)
  | stop (name : Header.ActionName)
deriving DecidableEq, Repr

namespace Header

/-- What the grammar asked for where the tokens ended. -/
inductive Expectation where
  | action
  | value
  | colon
  | identifier
deriving DecidableEq, Repr

/-- Why tokens are no header: a token no header can continue with, an end where
more is needed, or parameters after a slash. -/
inductive GrammarFault where
  | unexpected (token : Token)
  | endsBefore (what : Expectation)
  | paramsOnEnd (loc : Position)
deriving DecidableEq, Repr

/-- The value that a symbol writes; a bare identifier is text. -/
def Symbol.literal? : Symbol → Option Literal
  | .identifier name => some (.text name)
  | .text s => some (.text s)
  | .integer n => some (.integer n)
  | .float x => some (.float x)
  | .bool b => some (.bool b)
  | .variable name => some (.variable name)
  | .colon => none
  | .slash => none

/-- The first token as an identifier, and the tokens after it. -/
def expectIdentifier : List Token → Except GrammarFault (String × List Token)
  | [] => .error (.endsBefore .identifier)
  | token :: rest =>
    match token.symbol with
    | .identifier name => .ok (name, rest)
    | _ => .error (.unexpected token)

/-- The tokens after a first colon. -/
def expectColon : List Token → Except GrammarFault (List Token)
  | [] => .error (.endsBefore .colon)
  | token :: rest =>
    match token.symbol with
    | .colon => .ok rest
    | _ => .error (.unexpected token)

/-- The name of an action, `:action` or `namespace:action`. -/
def parseName (defaultNamespace : String) : List Token → Except GrammarFault (ActionName × List Token)
  | [] => .error (.endsBefore .action)
  | token :: rest =>
    match token.symbol with
    | .colon => do
      let (action, rest) ← expectIdentifier rest
      return (⟨defaultNamespace, action⟩, rest)
    | .identifier namespaceName => do
      let rest ← expectColon rest
      let (action, rest) ← expectIdentifier rest
      return (⟨namespaceName, action⟩, rest)
    | _ => .error (.unexpected token)

/-- Parameters up to the end of the tokens. -/
def parseParams : List Token → Except GrammarFault (List Parameter)
  | [] => .ok []
  | [key] =>
    match key.symbol with
    | .identifier _ => .error (.endsBefore .colon)
    | _ => .error (.unexpected key)
  | [key, colon] =>
    match key.symbol, colon.symbol with
    | .identifier _, .colon => .error (.endsBefore .value)
    | .identifier _, _ => .error (.unexpected colon)
    | _, _ => .error (.unexpected key)
  | key :: colon :: value :: rest =>
    match key.symbol, colon.symbol, value.symbol.literal? with
    | .identifier name, .colon, some literal =>
      match parseParams rest with
      | .ok params => .ok (⟨name, literal, key.loc⟩ :: params)
      | .error fault => .error fault
    | .identifier _, .colon, none => .error (.unexpected value)
    | .identifier _, _, _ => .error (.unexpected colon)
    | _, _, _ => .error (.unexpected key)

/-- The header of a block end, once its name and parameters are known. -/
def refuseParams (name : ActionName) : List Parameter → Except GrammarFault Header
  | [] => .ok (.stop name)
  | param :: _ => .error (.paramsOnEnd param.loc)

/-- The header that tokens write; `:action` is in the default namespace. -/
def parse (defaultNamespace : String) : List Token → Except GrammarFault Header
  | ⟨.slash, _⟩ :: rest => do
    let (name, rest) ← parseName defaultNamespace rest
    let params ← parseParams rest
    refuseParams name params
  | tokens => do
    let (name, rest) ← parseName defaultNamespace tokens
    let params ← parseParams rest
    return .start name params

/-- The name of the action a header is about. -/
def name : Header → ActionName
  | .start name _ => name
  | .stop name => name

/-- What was asked for, in words. -/
def Expectation.describe : Expectation → String
  | .action => "an action"
  | .value => "a value"
  | .colon => "colon"
  | .identifier => "identifier"

/-- The complaint about tokens that are no header. -/
def GrammarFault.message : GrammarFault → String
  | .unexpected token => "syntax error before " ++ token.symbol.describe
  | .endsBefore what => "expected " ++ what.describe
  | .paramsOnEnd _ => "block end does not accept parameters"

/-- Where the complaint points, unless it is to the end. -/
def GrammarFault.loc? : GrammarFault → Option Position
  | .unexpected token => some token.loc
  | .endsBefore _ => none
  | .paramsOnEnd loc => some loc

/-- The value a literal has once variables are replaced; `none` for a variable. -/
def Literal.value? : Literal → Option Value
  | .text s => some (.text s)
  | .integer n => some (.int n)
  | .float x => some (.float x)
  | .bool b => some (.bool b)
  | .variable _ => none

/-- The literal as it is written down for inspection. -/
def Literal.asWritten : Literal → Value
  | .text s => .text s
  | .integer n => .int n
  | .float x => .float x
  | .bool b => .bool b
  | .variable name => .variable name

end Header
end Regen
