import Regen.Schema

/-! Actions as a generator's catalogue declares them. -/
namespace Regen

/-- An entry of a catalogue. `container` is the parameter that names the section
an action opens, for actions that open one. -/
structure ActionSpec where
  name : Value
  params : Value
  doc : Value
  container : Value
deriving Repr

/-- Why a catalogue entry declares no action. -/
inductive ActionFault where
  | notADeclaration (name given : Value)
  | unknownKeys (name : Value) (keys : List Value)
  | escape (escape : Escape)
deriving Repr

/-- What stopped the declaration, for the caller. -/
def ActionFault.toEscape : ActionFault → Escape
  | .notADeclaration name given =>
    .about .badValue [name, given] s!"invalid spec for action {name.shown}: {given.shown}"
  | .unknownKeys name keys =>
    let listed := Value.list keys
    .about .badValue [name, listed]
      s!"invalid spec for action {name.shown}, unknown keys: {listed.shown}"
  | .escape found => found

/-- The failure to use a value of a kind that cannot be a key as one. -/
def Escape.noKey (kind : String) : Escape := ⟨.badType, Value.noKeyMessage kind⟩

/-- The failure to bring values into an order. -/
def Disorder.toEscape (disorder : Disorder) : Escape := ⟨.badType, disorder.message⟩

namespace Value

/-- A table entry from a value that hands out two, the one at `index`. -/
def entryOf (index : Nat) (value : Value) : Except Escape (Value × Value) :=
  match value.parts? with
  | Option.none =>
    .error ⟨.badType, s!"cannot convert dictionary update sequence element #{index} to a sequence"⟩
  | some [key, value] =>
    match key.unkeyable? with
    | Option.none => .ok (key, value)
    | some kind => .error (.noKey kind)
  | some parts =>
    .error ⟨.badValue,
      s!"dictionary update sequence element #{index} has length {parts.length}; 2 is required"⟩

/-- The entries of a table, or of a sequence of pairs; none for a value that
counts as not given. -/
def toTable (value : Value) : Except Escape Table :=
  match value with
  | .table entries => .ok entries
  | value =>
    if !value.isTruthy then .ok []
    else match value.parts? with
      | Option.none => .error ⟨.badType, s!"'{value.kindName}' object is not iterable"⟩
      | some parts => do
        return .ofPairs (← parts.zipIdx.mapM fun part => entryOf part.2 part.1)

end Value

namespace ActionSpec

/-- The keys of a catalogue entry written as a table. -/
def keys : List String := ["params", "doc", "container"]

/-- Whether a key is one of those. -/
def isKnown (key : Value) : Bool := keys.any fun name => key.sameKey (.text name)

/-- The action that a catalogue entry declares: one as such, a table of its
parts, or nothing for an action without parameters. -/
def ofValue (name : Value) : Value → Except ActionFault ActionSpec
  | .action given params doc container => .ok ⟨given, params, doc, container⟩
  | .none => .ok ⟨name, .table [], .text "", .none⟩
  | .table entries =>
    match Table.sort (entries.filter fun entry => !isKnown entry.1) with
    | .error disorder => .error (.escape disorder.toEscape)
    | .ok [] =>
      match ((Table.at? entries "params").getD .none).toTable with
      | .error escape => .error (.escape escape)
      | .ok params =>
        .ok ⟨name, .table params, (Table.at? entries "doc").getD (.text ""),
          (Table.at? entries "container").getD .none⟩
    | .ok unknown => .error (.unknownKeys name (unknown.map Prod.fst))
  | given => .error (.notADeclaration name given)

end ActionSpec
end Regen
