import Regen.Surroundings

/-! Sources of variables. A project's package describes itself in a metadata
file, from which two variables come; other sources hand over what they provide. -/
namespace Regen

inductive Scope where
  /-- A source that always provides the same, or fails in the same way. -/
  | fixed (kind : String) (provided : Except Escape Value)
  /-- The metadata file at a path. -/
  | metadata (path : Path)
deriving Repr

namespace Scope

/-- The kind of a source. -/
def kind : Scope → String
  | .fixed name _ => name
  | .metadata _ => "DefaultsScope"

/-- What a source is shown as. -/
def shown : Scope → String
  | .fixed kind _ => kind ++ "()"
  | .metadata path => s!"DefaultsScope(path='{path.text}')"

/-- What metadata says under a key of the project, which is meant to be a table. -/
def describes? (key : String) : Value → Except Escape (Option Value)
  | .table entries => .ok (Table.at? entries key)
  | .text s =>
    if Text.isWithin key.toList s.toList then
      .error ⟨.badType, "string indices must be integers, not 'str'"⟩
    else .ok none
  | .list items =>
    if items.any fun item => match item with | .text s => s = key | _ => false then
      .error ⟨.badType, "list indices must be integers or slices, not str"⟩
    else .ok none
  | project => .error ⟨.badType, s!"argument of type '{project.kindName}' is not iterable"⟩

/-- The variables in the metadata of a project. -/
def variablesOf (project : Value) : Except Escape Value := do
  let name ← describes? "name" project
  let version ← describes? "version" project
  return Value.ofEntries
    ((name.toList.map ("package_name", ·)) ++ (version.toList.map ("app_vsn", ·)))

/-- The project that metadata describes; an empty one where there is none. -/
def projectOf : Value → Value
  | .table entries => (Table.at? entries "project").getD (.table [])
  | _ => .table []

/-- The variables in the metadata that bytes hold. -/
def read (surroundings : Surroundings) (content : Bytes) : Except Escape Value :=
  match Utf8.decode content with
  | .error fault => .error fault.toEscape
  | .ok text =>
    match surroundings.readMetadata text with
    | .error found => .error found
    | .ok found => variablesOf (projectOf found)

/-- What a source provides. A metadata file that is not there provides nothing. -/
def provide (surroundings : Surroundings) : Scope → Run Escape Value
  | .fixed _ provided => .ofExcept provided
  | .metadata path =>
    match surroundings.files.isFile path with
    | .error fault => .fail fault.toEscape
    | .ok false => (Run.record (.noMetadata path.text)).bind fun _ => .pure (.table [])
    | .ok true =>
      match surroundings.files.read path with
      | .error fault => .fail fault.toEscape
      | .ok content => .ofExcept (read surroundings content)

end Scope

/-- An object that a project supplies; a plain value is neither a generator nor
a source of variables. -/
inductive Supplied where
  | generator (generator : Generator)
  | scope (scope : Scope)
  | value (value : Value)

namespace Supplied

/-- An object as a value. -/
def asValue : Supplied → Value
  | .generator made => .object made.kind made.shown
  | .scope source => .object source.kind source.shown
  | .value plain => plain

/-- Whether an object is a source of variables. -/
def isScope : Supplied → Bool
  | .scope _ => true
  | _ => false

end Supplied

namespace Variables

/-- What an object provides, which has to be a table. -/
def provided (surroundings : Surroundings) : Supplied → Run Escape Table
  | .scope scope =>
    (scope.provide surroundings).bind fun value =>
      match value with
      | .table entries => .pure entries
      | given =>
        .fail (.about .badType [given] (s!"invalid return value from {scope.shown}.vars_get(), " ++
          s!"expected a mapping, got: {given.shown}"))
  | other =>
    .fail ⟨.missingAttribute, s!"'{other.asValue.kindName}' object has no attribute 'vars_get'"⟩

/-- The variables of two tables; where both have one, the first table's counts. -/
def overlay (first second : Table) : Table :=
  Table.ofPairs (second ++ first)

/-- The variables of a table and the sources after it, earlier ones counting. -/
def mergeOnto (surroundings : Surroundings) (merged : Table) :
    List Supplied → Run Escape Table
  | [] => .pure merged
  | scope :: more =>
    (provided surroundings scope).bind fun entries =>
      mergeOnto surroundings (overlay merged entries) more

/-- The variables given and those of the sources, the former counting first. -/
def merge (surroundings : Surroundings) (given : Value) (scopes : List Supplied) :
    Run Escape Table :=
  match given with
  | .none => mergeOnto surroundings [] scopes
  | .table entries => mergeOnto surroundings entries scopes
  | given =>
    .fail (.about .badType [given] s!"invalid vars, expected a mapping, got: {given.shown}")

end Variables
end Regen
