import Regen.Fault
import Regen.Table

/-! Schemas of parameters. An action declares the parameters it takes with their
types, which are required and what the others default to; checking never
converts a value, except that an integer does for a number. -/
namespace Regen

/-- The types a parameter can be declared with. -/
inductive ParamType where
  | string
  | integer
  | float
  | boolean
  | any
deriving DecidableEq, Repr

namespace ParamType

/-- All types, in the order in which complaints list them. -/
def all : List ParamType := [.string, .integer, .float, .boolean, .any]

/-- The name a declaration uses. -/
def name : ParamType → String
  | .string => "string"
  | .integer => "integer"
  | .float => "float"
  | .boolean => "boolean"
  | .any => "any"

/-- The type of a name. -/
def ofName? (name : String) : Option ParamType :=
  all.find? (·.name = name)

/-- What a complaint about a value of another type asks for. -/
def noun : ParamType → String
  | .string => "string"
  | .integer => "integer"
  | .float => "number"
  | .boolean => "boolean"
  | .any => "value"

/-- The value as the type has it, if the value is of the type. An integer is a
number unless it is beyond the range of numbers. -/
def accept? : ParamType → Value → Option Value
  | .string, .text s => some (.text s)
  | .integer, .int n => some (.int n)
  | .float, .float x => some (.float x)
  | .float, .int n =>
    if (Binary64.ofInt n).isFinite then some (.float (Binary64.ofInt n)) else none
  | .boolean, .bool b => some (.bool b)
  | .any, value => some value
  | _, _ => none

end ParamType

/-- The declaration of a parameter. A default of nothing is no default. -/
structure ParamSpec where
  type : ParamType
  required : Value
  default : Value
  doc : Value
deriving Repr

/-- Why declarations cannot be used: one of them is none, or the action has a
name that cannot be written or that schemas cannot bear. -/
inductive SpecFault where
  | notADeclaration (key given : Value)
  | unknownField (key : Value) (field : String)
  | nonTextField (key : Value)
  | unknownType (key type : Value)
  | longName
  | nullName
deriving Repr

/-- The complaint about declarations, for the caller. -/
def SpecFault.toEscape : SpecFault → Escape
  | .notADeclaration key given =>
    .about .badValue [key, given] s!"invalid schema for param {key.shown}: {given.shown}"
  | .unknownField key field =>
    .about .badValue [key] (s!"invalid schema for param {key.shown}: " ++
      s!"ParamSpec.__init__() got an unexpected keyword argument '{field}'")
  | .nonTextField key =>
    .about .badValue [key] s!"invalid schema for param {key.shown}: keywords must be strings"
  | .unknownType key type =>
    .about .badValue [key, type] (s!"invalid type {type.shown} for param {key.shown}, " ++
      "expected one of " ++ ", ".intercalate (ParamType.all.map ParamType.name))
  | .longName => .unwritable
  | .nullName => ⟨.badValue, "type name must not contain null characters"⟩

namespace ParamSpec

/-- Whether the parameter has to be given. -/
def isRequired (spec : ParamSpec) : Bool := spec.required.isTruthy

/-- The fields of a declaration. -/
def fieldNames : List String := ["type", "required", "default", "doc"]

/-- A declaration with this type, provided there is such a type. -/
def withType (key type required default doc : Value) : Except SpecFault ParamSpec :=
  match type with
  | .text name =>
    match ParamType.ofName? name with
    | some type => .ok ⟨type, required, default, doc⟩
    | none => .error (.unknownType key (.text name))
  | type => .error (.unknownType key type)

/-- The text that a value is, if it is one. -/
def textOf? : Value → Option String
  | .text s => some s
  | _ => none

/-- The first thing wrong with the field names of a declaration written as a table. -/
def fieldFault? (key : Value) (entries : Table) : Option SpecFault :=
  match entries.mapM fun entry => textOf? entry.1 with
  | none => some (.nonTextField key)
  | some names =>
    (names.find? fun name => !fieldNames.contains name).map fun name => .unknownField key name

/-- The declaration that a value is: one as such, a table of its fields, or the
name of a type alone. -/
def ofValue (key : Value) : Value → Except SpecFault ParamSpec
  | .text name => withType key (.text name) (.bool false) .none (.text "")
  | .param type required default doc => withType key type required default doc
  | .table entries =>
    match fieldFault? key entries with
    | some fault => .error fault
    | none =>
      withType key ((Table.at? entries "type").getD (.text "any"))
        ((Table.at? entries "required").getD (.bool false))
        ((Table.at? entries "default").getD .none)
        ((Table.at? entries "doc").getD (.text ""))
  | given => .error (.notADeclaration key given)

end ParamSpec

/-- A declared parameter. It may be declared under no key at all; `word` is what
stands before the colon when it is given. -/
structure Param where
  key : Option String
  word : String
  spec : ParamSpec
deriving Repr

/-- The parameters of an action in the order of declaration, and whether others
are admitted. -/
structure Schema where
  params : List Param
  admitsOthers : Bool
deriving Repr

/-- Why declarations are no schema: one is at fault, or they are no table of
declarations under names at all. -/
inductive SchemaFault where
  | spec (fault : SpecFault)
  | escape (escape : Escape)
deriving Repr

/-- What is wrong with one parameter given to an action. -/
inductive ParamProblem where
  | wrongType (key : String) (type : ParamType)
  | missing (key : String)
  | unknown (key : String)
deriving DecidableEq, Repr

/-- Why parameters are refused: a key given twice, or problems, all of them. -/
inductive ParamFault where
  | duplicate (key : String)
  | problems (all : List ParamProblem)
deriving DecidableEq, Repr

/-- A problem in words. -/
def ParamProblem.message : ParamProblem → String
  | .wrongType key type => s!"param {key}: Input should be a valid {type.noun}"
  | .missing key => s!"required param {key} not found"
  | .unknown key => s!"unknown param {key}"

/-- The complaint about parameters. -/
def ParamFault.message : ParamFault → String
  | .duplicate key => s!"duplicate param {key}"
  | .problems all => ", ".intercalate (all.map ParamProblem.message)

/-- Why parameters do not get to an action: they are refused, or one declared
under no key is given, which nothing can be made of. -/
inductive ParamStop where
  | fault (fault : ParamFault)
  | keyless (word : String)
deriving DecidableEq, Repr

/-- The first key that stands in the list again. -/
def Entries.firstRepeated? (seen : List String) : Entries → Option String
  | [] => none
  | (key, _) :: more =>
    if seen.contains key then some key else firstRepeated? (key :: seen) more

namespace Param

/-- The parameter at a place among those declared. One without a key is given
under a word made from its place. -/
def ofKey (place : Nat) (spec : ParamSpec) : Option String → Param
  | none => ⟨none, s!"p{place}", spec⟩
  | some key => ⟨some key, key, spec⟩

/-- The key as a value. -/
def keyValue (param : Param) : Value := (param.key.map Value.text).getD .none

end Param

namespace Schema

/-- The key that admits parameters under undeclared keys. -/
def wildcard : String := "*"

/-- The declarations of a table, keys kept as they are. -/
def specsOf : Table → Except SpecFault (List (Value × ParamSpec))
  | [] => .ok []
  | (key, given) :: more => do
    let spec ← ParamSpec.ofValue key given
    let specs ← specsOf more
    return (key, spec) :: specs

/-- Whether a key is the one that admits others. -/
def isWildcard (key : Value) : Bool := key.sameKey (.text wildcard)

/-- A declared key, which is a text or missing. -/
def keyOf : Value → Except Escape (Option String)
  | .text key => .ok (some key)
  | .none => .ok none
  | key =>
    .error ⟨.badSchema, "Error building \"model\" validator:\n" ++
      "  SchemaError: Error building \"model-fields\" validator:\n" ++
      s!"  TypeError: '{key.kindName}' object cannot be converted to 'PyList'"⟩

/-- The parameters that are declared, the wildcard not being one. -/
def paramsOf (specs : List (Value × ParamSpec)) : Except Escape (List Param) :=
  (specs.filter fun entry => !isWildcard entry.1).zipIdx.mapM fun entry => do
    return .ofKey entry.2 entry.1.2 (← keyOf entry.1.1)

/-- The schema of an action with these declarations. -/
def ofSpecs (action : Value) (specs : List (Value × ParamSpec)) : Except SchemaFault Schema :=
  if !action.isWritable then .error (.spec .longName)
  else if action.display.toList.contains '\x00' then .error (.spec .nullName)
  else match paramsOf specs with
    | .error escape => .error (.escape escape)
    | .ok params => .ok ⟨params, specs.any fun entry => isWildcard entry.1⟩

/-- The schema that a value declares for an action; a value that counts as not
given declares no parameters. -/
def ofValue (action value : Value) : Except SchemaFault Schema :=
  match value with
  | .table entries =>
    match specsOf entries with
    | .error fault => .error (.spec fault)
    | .ok specs => ofSpecs action specs
  | value =>
    if value.isTruthy then
      .error (.escape ⟨.missingAttribute, s!"'{value.kindName}' object has no attribute 'items'"⟩)
    else ofSpecs action []

/-- The parameter declared under a key. -/
def param? (schema : Schema) (key : String) : Option Param :=
  schema.params.find? fun param => param.key = some key

/-- Whether a word stands for a declared parameter. -/
def knows (schema : Schema) (word : String) : Bool :=
  schema.params.any fun param => param.word = word

/-- The problem with a declared parameter, if there is one. -/
def declaredProblem? (given : Entries) (param : Param) : Option ParamProblem :=
  match given.get? param.word with
  | some value =>
    if (param.spec.type.accept? value).isNone then some (.wrongType param.word param.spec.type)
    else none
  | none => if param.spec.isRequired then some (.missing param.word) else none

/-- Every problem with given parameters: those of declared ones in the order of
declaration, then the unknown ones as given. -/
def problems (schema : Schema) (given : Entries) : List ParamProblem :=
  schema.params.filterMap (declaredProblem? given) ++
    if schema.admitsOthers then []
    else (given.filter fun entry => !schema.knows entry.1).map fun entry => .unknown entry.1

/-- A given value as the type of its parameter has it. A word that stands only
for a parameter without a key leads nowhere. -/
def accepted (schema : Schema) (entry : String × Value) : Except ParamStop (Value × Value) :=
  match schema.param? entry.1 with
  | some param => .ok (.text entry.1, (param.spec.type.accept? entry.2).getD entry.2)
  | none => if schema.knows entry.1 then .error (.keyless entry.1) else .ok (.text entry.1, entry.2)

/-- The defaults of the parameters that are not given. -/
def defaults (schema : Schema) (given : Entries) : Table :=
  schema.params.filterMap fun param =>
    if (param.key.any given.has) || param.spec.default.isNone then none
    else some (param.keyValue, param.spec.default)

/-- The parameters an action receives: the given ones in their order, then the
defaults of the others in the order of declaration. -/
def check (schema : Schema) (given : Entries) : Except ParamStop Table :=
  match given.firstRepeated? [] with
  | some key => .error (.fault (.duplicate key))
  | none =>
    match schema.problems given with
    | [] => do
      let accepted ← given.mapM schema.accepted
      return accepted ++ schema.defaults given
    | all => .error (.fault (.problems all))

end Schema
end Regen
