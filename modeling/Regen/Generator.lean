import Regen.Document.Tree
import Regen.Journal

/-! Generators. A generator declares a catalogue of actions and answers calls of
them. What it may do meanwhile is a script: besides the context it is handed,
it can ask only for the text of its children, any number of times. -/
namespace Regen

/-- A block bound to the action that its header names: the generator as it is
shown, checked parameters, and the name of the section the block opens. -/
structure Call where
  block : Block
  generator : String
  params : Table
  sectionName : Option String
deriving Repr

namespace Call

/-- The action called. -/
def name (call : Call) : Header.ActionName := call.block.start.name

/-- Where the call stands. -/
def loc (call : Call) : Position := call.block.start.loc

/-- The generator as a value in reports. -/
def generatorValue (call : Call) : Value := .object call.generator call.generator

/-- The cause of a report that the generator failed for a reason. -/
def failed (call : Call) (reason : Value) : Cause :=
  .failure call.generatorValue (.text call.name.action) (.table call.params) reason

end Call

/-- What stands before a block when its turn comes: texts, and blocks with the
content generated for them. -/
inductive Sibling where
  | text (content : Text)
  | block (call : Call) (content : Text)
deriving Repr

namespace Sibling

/-- The text a sibling contributes to the document. -/
def output : Sibling → Text
  | .text content => content
  | .block call content => call.block.start.raw ++ content ++ call.block.footer

/-- The name of the section, for a block that opened one. -/
def sectionName? : Sibling → Option String
  | .text _ => none
  | .block call _ => call.sectionName

/-- The text that several siblings contribute. -/
def outputAll (siblings : List Sibling) : Text :=
  siblings.flatMap output

end Sibling

/-- A fragment of a document on its way out: text, a block with the content generated
for it, or a block that has none. -/
inductive Fragment where
  | text (content : Text)
  | rendered (call : Call) (content : Text)
  | unrendered (call : Call)
deriving Repr

/-- The text of fragments in order, to which a block without content has nothing to add. -/
def Fragment.outputAll (file : String) : List Fragment → Except Escape Text
  | [] => .ok []
  | .text content :: more => (outputAll file more).map (content ++ ·)
  | .rendered call content :: more =>
    (outputAll file more).map (call.block.start.raw ++ content ++ call.block.footer ++ ·)
  | .unrendered call :: _ =>
    .error ⟨.badValue, s!"block at {file}:{call.loc.text} was not rendered"⟩

/-- A sibling on its way out. -/
def Sibling.fragment : Sibling → Fragment
  | .text content => .text content
  | .block call content => .rendered call content

/-- What is rendered has a text, whatever it holds. -/
theorem Fragment.outputAll_siblings (file : String) (siblings : List Sibling) :
    Fragment.outputAll file (siblings.map Sibling.fragment) = .ok (Sibling.outputAll siblings) := by
  induction siblings with
  | nil => rfl
  | cons sibling more ih =>
    cases sibling with
    | text content =>
      rw [List.map_cons, Sibling.fragment, outputAll, ih]
      rfl
    | block call content =>
      rw [List.map_cons, Sibling.fragment, outputAll, ih]
      rfl

/-- A section as later blocks see it. -/
structure Section where
  call : Call
  content : Text
deriving Repr

/-- What a generator is handed with a call. -/
structure Context where
  file : String
  call : Call
  children : List (Tree Call)
  previous : List Sibling
  following : List (Tree Call)
  vars : Table

namespace Context

/-- The last section of a name among siblings. -/
def lastSection? (name : String) (previous : List Sibling) : Option Section :=
  previous.reverse.findSome? fun sibling =>
    match sibling with
    | .text _ => none
    | .block call content => if call.sectionName = some name then some ⟨call, content⟩ else none

/-- The closest section of a name before the block at its level. -/
def section? (context : Context) (name : String) : Option Section :=
  lastSection? name context.previous

end Context

/-- How a generator answers a call. -/
inductive Reply where
  /-- The new content of the block. -/
  | content (text : Text)
  /-- The reason for giving none. -/
  | failure (reason : Value)
  /-- Something that is no reply. -/
  | foreign (answer : Value)
  /-- A variable was wanted that is not defined. -/
  | undefined (name : Value)
  /-- A section was wanted that is not there. -/
  | noSection (name : Value)
  /-- A failure that no report covers. -/
  | escape (escape : Escape)
deriving Repr

/-- What a generator does in answer to a call. -/
inductive Script where
  | reply (reply : Reply)
  | withChildren (next : Text → Script)

namespace Script

/-- The reply of a script whose children render as given. -/
def run {ε : Type} (children : Run ε Text) : Script → Run ε Reply
  | .reply answer => .pure answer
  | .withChildren next => children.bind fun text => (next text).run children

/-- The script that answers with its children as they are. -/
def transparent : Script := .withChildren fun text => .reply (.content text)

end Script

/-- The script that reads a variable and goes on with its value; it replies with the name
of a variable that is not defined. -/
def Context.reading (context : Context) (name : String) (next : Value → Script) : Script :=
  match context.vars.at? name with
  | none => .reply (.undefined (.text name))
  | some value => next value

/-- A generator; `catalog` is meant to be a table of actions, and asking for it may
fail. -/
structure Generator where
  kind : String
  catalog : Except Escape Value
  generate : String → Table → Context → Script

/-- What a generator is shown as. -/
def Generator.shown (generator : Generator) : String := generator.kind ++ "()"

end Regen
