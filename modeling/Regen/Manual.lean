import Regen.Action
import Regen.Text.Blank

/-! The manual of a generator: its catalogue written out as a document, with one
list item for each parameter. -/
namespace Regen.Manual

/-- A default as the manual has it: text between quotation marks, truth values
in lower case. -/
def formatDefault : Value → Except Escape String
  | .bool b => .ok (if b then "true" else "false")
  | .text s => .ok ("\"" ++ s ++ "\"")
  | value => value.write

/-- The words of a parameter's description, one space between them. -/
def description (doc : Value) : Except Escape String :=
  match doc with
  | .text s => .ok (" " ++ String.ofList (Text.joinWith [' '] (Text.words s.toList)))
  | doc => .error ⟨.missingAttribute, s!"'{doc.kindName}' object has no attribute 'split'"⟩

/-- The sentence about a default, if there is one. -/
def standard (default : Value) : Except Escape String :=
  if default.isNone then .ok ""
  else (formatDefault default).map fun text => s!" The default value is `{text}`."

/-- The item of a parameter. -/
def item (key : Value) (spec : ParamSpec) : Except Escape String := do
  let name ← key.write
  let need := if spec.isRequired then " Required." else ""
  let words ← if spec.doc.isTruthy then description spec.doc else pure ""
  let standard ← standard spec.default
  return s!"* `{name}` (`{spec.type.name}`) -" ++ need ++ words ++ standard ++ "\n"

/-- The items of declared parameters. -/
def items : List (Value × Value) → Except Escape String
  | [] => .ok ""
  | (key, declared) :: more =>
    match ParamSpec.ofValue key declared with
    | .error fault => .error fault.toEscape
    | .ok spec => do
      let first ← item key spec
      return first ++ (← items more)

/-- The list of an action's parameters. -/
def parameters (params : Value) : Except Escape String :=
  if !params.isTruthy then .ok "This action takes no parameters.\n"
  else match params with
    | .table entries => items entries
    | params => .error ⟨.missingAttribute, s!"'{params.kindName}' object has no attribute 'items'"⟩

/-- The chapter of an action. -/
def chapter (name : Value) (spec : ActionSpec) : Except Escape String := do
  let title ← name.write
  let doc ← if spec.doc.isTruthy then spec.doc.write.map (· ++ "\n\n") else pure ""
  return s!"### {title}\n\n" ++ doc ++ "#### Parameters\n\n" ++
    (← parameters spec.params) ++ "\n"

/-- The chapters of the actions of a catalogue. -/
def chapters : List (Value × Value) → Except Escape String
  | [] => .ok ""
  | (name, declared) :: more =>
    match ActionSpec.ofValue name declared with
    | .error fault => .error fault.toEscape
    | .ok spec => do
      let first ← chapter name spec
      return first ++ (← chapters more)

/-- The manual of a catalogue. -/
def write (catalog : List (Value × Value)) : Except Escape String := do
  return "## Readmix Actions\n\n" ++ (← chapters catalog)

end Regen.Manual
