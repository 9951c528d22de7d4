import Regen.Assoc
import Regen.Decimal.Shortest
import Regen.Text.Quoted

/-! Values: what parameters carry, variables hold, generators answer and
configuration files declare. A value has two texts, the one it is shown with
inside messages and the one it stands for where text is wanted; a value that
holds an integer of too many digits has neither. -/
namespace Regen

/-- Integers of more decimal digits than this are neither read nor written. -/
def numeralLimit : Nat := 4300

/-- Tables keep the order in which their keys were entered. Declarations of
parameters and actions are values too, as a catalogue may give them as such or
as tables with the same fields. -/
inductive Value where
  | none
  | bool (b : Bool)
  | int (n : Int)
  | float (x : Binary64)
  | text (s : String)
  | list (items : List Value)
  | tuple (items : List Value)
  | table (entries : List (Value × Value))
  | variable (name : String)
  | param (type required default doc : Value)
  | action (name params doc container : Value)
  | object (kind shown : String)
deriving Repr, Inhabited

/-- Values under names, in the order of entry. -/
abbrev Entries := Assoc String Value

/-- Values under keys of any kind, in the order of entry. -/
abbrev Table := List (Value × Value)

namespace Value

/-- Numbers are written positionally from a ten-thousandth to below ten to the
sixteenth, and with an exponent of two or more digits elsewhere. -/
def floatLayout : Decimal.Layout := ⟨-4, 16, 2⟩

mutual

/-- The text a value is shown with inside a message. -/
def shown : Value → String
  | .none => "None"
  | .bool true => "True"
  | .bool false => "False"
  | .int n => toString n
  | .float x => String.ofList (floatLayout.write x)
  | .text s => quote s
  | .list items => "[" ++ ", ".intercalate (shownItems items) ++ "]"
  | .tuple [] => "()"
  | .tuple [item] => "(" ++ shown item ++ ",)"
  | .tuple (first :: second :: more) =>
    "(" ++ ", ".intercalate (shown first :: shown second :: shownItems more) ++ ")"
  | .table entries => "\x7b" ++ ", ".intercalate (shownEntries entries) ++ "\x7d"
  | .variable name => "Variable(name=" ++ quote name ++ ")"
  | .param type required default doc =>
    "ParamSpec(type=" ++ shown type ++ ", required=" ++ shown required ++ ", default=" ++
      shown default ++ ", doc=" ++ shown doc ++ ")"
  | .action name params doc container =>
    "ActionSpec(name=" ++ shown name ++ ", handler=None, params=" ++ shown params ++ ", doc=" ++
      shown doc ++ ", container=" ++ shown container ++ ")"
  | .object _ shown => shown

/-- The texts of several values. -/
def shownItems : List Value → List String
  | [] => []
  | item :: more => shown item :: shownItems more

/-- The texts of the entries of a table. -/
def shownEntries : List (Value × Value) → List String
  | [] => []
  | (key, value) :: more => (shown key ++ ": " ++ shown value) :: shownEntries more

end

/-- The text a value stands for: its own where it is text, the written
reference of a variable, and what is shown of anything else. -/
def display : Value → String
  | .text s => s
  | .variable name => "$" ++ name
  | value => shown value

mutual

/-- Whether a value can be written: no integer in it is beyond the limit. -/
def isWritable : Value → Bool
  | .none => true
  | .bool _ => true
  | .int n => n.natAbs < Nat.pow 10 numeralLimit
  | .float _ => true
  | .text _ => true
  | .list items => areWritable items
  | .tuple items => areWritable items
  | .table entries => entriesWritable entries
  | .variable _ => true
  | .param type required default doc =>
    isWritable type && isWritable required && isWritable default && isWritable doc
  | .action name params doc container =>
    isWritable name && isWritable params && isWritable doc && isWritable container
  | .object _ _ => true

/-- Whether several values can be written. -/
def areWritable : List Value → Bool
  | [] => true
  | item :: more => isWritable item && areWritable more

/-- Whether the entries of a table can be written. -/
def entriesWritable : List (Value × Value) → Bool
  | [] => true
  | (key, value) :: more => isWritable key && isWritable value && entriesWritable more

end

/-- Whether a value counts as given: empty text, empty collections, zero and
nothing do not. -/
def isTruthy : Value → Bool
  | .none => false
  | .bool b => b
  | .int n => n ≠ 0
  | .float x => !x.isZero
  | .text s => s ≠ ""
  | .list items => !items.isEmpty
  | .tuple items => !items.isEmpty
  | .table entries => !entries.isEmpty
  | _ => true

/-- No value at all. -/
def isNone : Value → Bool
  | .none => true
  | _ => false

/-- The name of a value's kind, as complaints about kinds have it. -/
def kindName : Value → String
  | .none => "NoneType"
  | .bool _ => "bool"
  | .int _ => "int"
  | .float _ => "float"
  | .text _ => "str"
  | .list _ => "list"
  | .tuple _ => "tuple"
  | .table _ => "dict"
  | .variable _ => "Variable"
  | .param .. => "ParamSpec"
  | .action .. => "ActionSpec"
  | .object kind _ => kind

/-- The values a collection hands out one by one: the items of a list or a
tuple, the characters of a text, the keys of a table. -/
def parts? : Value → Option (List Value)
  | .list items => some items
  | .tuple items => some items
  | .text s => some (s.toList.map fun c => .text (String.singleton c))
  | .table entries => some (entries.map Prod.fst)
  | _ => Option.none

end Value
end Regen
