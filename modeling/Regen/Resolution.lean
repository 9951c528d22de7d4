import Regen.Document
import Regen.Registry

/-! Resolution: every block of a document is bound to the action it names before
any generator runs. Blocks are bound in document order, those inside a block
before the block itself, and the first that cannot be bound is reported. -/
namespace Regen

/-- What the blocks of a document can refer to. -/
structure Bindings where
  registry : Registry
  vars : Table

/-- Why a block cannot be bound. -/
inductive BindFault where
  | cause (cause : Cause)
  | escape (escape : Escape)
deriving Repr

namespace Bindings

/-- The values of parameters, with those of variables put in, or the first
variable that is not defined. -/
def given (bindings : Bindings) : List Header.Parameter → Except String Entries
  | [] => .ok []
  | param :: more =>
    match param.value with
    | .variable name =>
      match bindings.vars.at? name with
      | none => .error name
      | some value => (given bindings more).map ((param.key, value) :: ·)
    | literal => (given bindings more).map ((param.key, literal.asWritten) :: ·)

/-- The name of the section that an action with a container opens; a parameter
that is not given or holds nothing names none, and one whose value cannot be
written leads nowhere. -/
def sectionName (container : Value) (params : Table) : Except Escape (Option String) :=
  match container with
  | .none => .ok none
  | container =>
    match container.unkeyable? with
    | some kind => .error (.noKey kind)
    | none =>
      match params.get? container with
      | none => .ok none
      | some value => if value.isNone then .ok none else value.write.map some

/-- The call of an action found for a block. -/
def callAction (bindings : Bindings) (block : Block) (generator : Generator) (action : Action) :
    Except BindFault Call :=
  let name := block.start.name
  match bindings.given block.start.params with
  | .error undefined => .error (.cause (.undefinedVariable (.text undefined)))
  | .ok given =>
    match action.schema.check given with
    | .error (.fault fault) =>
      .error (.cause (.invalidParams (.text fault.message) (.text name.namespaceName)
        (.object generator.kind generator.shown) (.text name.action)))
    | .error (.keyless word) => .error (.escape ⟨.missingKey, quote word⟩)
    | .ok params =>
      match sectionName action.spec.container params with
      | .error found => .error (.escape found)
      | .ok sectionName => .ok ⟨block, generator.shown, params, sectionName⟩

/-- The call that a block makes. -/
def call (bindings : Bindings) (block : Block) : Except BindFault Call :=
  let name := block.start.name
  match bindings.registry.entry? name.namespaceName with
  | none => .error (.cause (.unknownNamespace (.text name.namespaceName)))
  | some entry =>
    match entry.action? name.action with
    | none =>
      .error (.cause (.unknownAction (.text name.action) (.text name.namespaceName)
        (.object entry.generator.kind entry.generator.shown) (.text name.action)))
    | some action => bindings.callAction block entry.generator action

/-- The report of a block that cannot be bound. -/
def BindFault.toHalt (file : String) (block : Block) : BindFault → Halt
  | .cause cause => .fault ⟨cause, some block.start.loc, some file⟩
  | .escape found => .escape found

mutual

/-- A node with its blocks bound to their calls. -/
def resolve (bindings : Bindings) (file : String) : Node → Except Halt (Tree Call)
  | .text content => .ok (.text content)
  | .block block body =>
    match resolveAll bindings file body with
    | .error halt => .error halt
    | .ok children =>
      match bindings.call block with
      | .error fault => .error (BindFault.toHalt file block fault)
      | .ok call => .ok (.block call children)

/-- Several nodes with their blocks bound to their calls. -/
def resolveAll (bindings : Bindings) (file : String) : List Node → Except Halt (List (Tree Call))
  | [] => .ok []
  | node :: more =>
    match resolve bindings file node with
    | .error halt => .error halt
    | .ok tree =>
      match resolveAll bindings file more with
      | .error halt => .error halt
      | .ok trees => .ok (tree :: trees)

end

end Bindings

end Regen
