import Regen.Reference
import Regen.Text.Utf8.Pieces

/-! Projects. A project may declare generators, sources of variables and
variables in a file of its own; a file that is not there declares nothing,
unless it was asked for. -/
namespace Regen

/-- What is wrong with a project's declarations. -/
inductive ProjectFault where
  | absent (path : Path)
  | unloadable (path : Path) (error : FileError)
  | unparsable (path : Path)
  | notTable (path : Path)
  | generators
  | scopes
  | vars
  | reference (fault : ReferenceFault)
deriving DecidableEq, Repr

/-- The complaint about a project. Why a file does not parse is for the parser
of its format to say. -/
def ProjectFault.message : ProjectFault → String
  | .absent path => s!"Configuration file not found: {path.text}"
  | .unloadable path error => s!"Failed to load {path.text}: {error.message}"
  | .unparsable path => s!"Failed to parse {path.text}:"
  | .notTable path => s!"{path.text} must contain a mapping"
  | .generators => "'generators' must map namespaces to 'module:attr'"
  | .scopes => "'scopes' must be a list"
  | .vars => "'vars' must be a mapping"
  | .reference fault => fault.message

/-- Why work on a project stops: its declarations are wrong, or something fails
that is not about them. -/
inductive ProjectStop where
  | fault (fault : ProjectFault)
  | escape (escape : Escape)
deriving Repr

/-- A project: where its declarations are, what they say, and whether there are
any. -/
structure Project where
  path : Path
  content : List (Value × Value)
  loaded : Bool
deriving Repr

namespace Project

/-- What a project is shown as. -/
def shown (project : Project) : String :=
  s!"ProjectConfig(path='{project.path.text}', loaded={(Value.bool project.loaded).shown})"

/-- The declarations in the content of a file, which is read in pieces. -/
def contentOf (surroundings : Surroundings) (path : Path) (bytes : Bytes) :
    Except ProjectStop (List (Value × Value)) :=
  match Utf8.decodeInPieces bytes with
  | .error fault => .error (.escape fault.toEscape)
  | .ok text =>
    match surroundings.readProject text with
    | .error .malformed => .error (.fault (.unparsable path))
    | .error (.escape found) => .error (.escape found)
    | .ok .none => .ok []
    | .ok (.table entries) => .ok entries
    | .ok _ => .error (.fault (.notTable path))

/-- Loads the declarations of the file asked for, or those of the usual file. -/
def load (surroundings : Surroundings) (asked : Option String) : Except ProjectStop Project :=
  let given := asked.getD ""
  let path := Path.ofString (if given = "" then surroundings.settings.projectFile else given)
  match surroundings.files.isThere path with
  | .error fault => .error (.escape fault.toEscape)
  | .ok false => if asked.isSome then .error (.fault (.absent path)) else .ok ⟨path, [], false⟩
  | .ok true =>
    match surroundings.files.read path with
    | .error (.system error) => .error (.fault (.unloadable path error))
    | .error .nullCharacter => .error (.escape FileFault.nullCharacter.toEscape)
    | .ok bytes => (contentOf surroundings path bytes).map fun content => ⟨path, content, true⟩

/-- What lies in a value under keys, one inside the other. -/
def descend : Value → List Text → Option Value
  | value, [] => some value
  | .table entries, key :: more =>
    (Table.at? entries (String.ofList key)).bind fun value => descend value more
  | _, _ :: _ => none

/-- The declaration under a key; dots lead into tables. -/
def get? (project : Project) (key : String) : Option Value :=
  descend (.table project.content) (Text.splitOn '.' key.toList)

/-- The table under a key. A declaration that counts as not given is an empty
one. -/
def tableAt (project : Project) (key : String) (fault : ProjectFault) :
    Except ProjectStop (List (Value × Value)) :=
  match project.get? key with
  | none => .ok []
  | some (.table entries) => .ok entries
  | some value => if value.isTruthy then .error (.fault fault) else .ok []

/-- A failure to follow a reference, where it stops work on a project. -/
def stopAt : ReferenceStop → ProjectStop
  | .fault fault => .fault (.reference fault)
  | .escape found => .escape found

/-- The text of a declared value. -/
def written (declared : Value) : Except ProjectStop String :=
  declared.write.mapError .escape

/-- The object that a declared value refers to. -/
def supply (modules : Modules) (declared : Value) : Except ProjectStop Supplied :=
  match written declared with
  | .error stop => .error stop
  | .ok text => (modules.resolve text).mapError stopAt

/-- The generator that an entry declares, with its namespace. -/
def generatorOf (modules : Modules) (entry : Value × Value) :
    Except ProjectStop (String × Supplied) :=
  match written entry.1 with
  | .error stop => .error stop
  | .ok namespaceName => (supply modules entry.2).map (namespaceName, ·)

/-- The generators declared, by namespace. -/
def generators (project : Project) (modules : Modules) :
    Except ProjectStop (Assoc String Supplied) :=
  match project.tableAt "generators" .generators with
  | .error stop => .error stop
  | .ok declared => (declared.mapM (generatorOf modules)).map .ofPairs

/-- The word for the source that is used when none are declared. -/
def standardScope : String := "default"

/-- The source that a declared value means. -/
def scopeOf (settings : Settings) (modules : Modules) (declared : Value) :
    Except ProjectStop Supplied :=
  match declared with
  | .text name =>
    if name = standardScope then .ok (.scope (.metadata (Path.ofString settings.metadataFile)))
    else supply modules declared
  | declared => supply modules declared

/-- The sources of variables declared; none where there is no declaration. -/
def scopes (project : Project) (settings : Settings) (modules : Modules) :
    Except ProjectStop (Option (List Supplied)) :=
  match project.get? "scopes" with
  | none => .ok none
  | some .none => .ok none
  | some (.list declared) => (declared.mapM (scopeOf settings modules)).map some
  | some _ => .error (.fault .scopes)

/-- The variables declared. Names need not be text in the file. -/
def vars (project : Project) : Except ProjectStop Entries :=
  match project.tableAt "vars" .vars with
  | .error stop => .error stop
  | .ok declared =>
    (declared.mapM fun entry => (written entry.1).map (·, entry.2)).map .ofPairs

end Project
end Regen
