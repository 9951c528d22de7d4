import Regen.Errno
import Regen.Position
import Regen.Table

/-! Faults: everything that can be wrong with a document or with generating it,
as causes. A fault names the file and, but for faults of files, the position of
the directive concerned; its kind, its detail and its message derive from the
cause. -/
namespace Regen

/-- Failures outside the reports on documents, by what they complain about. A kind
stands for its refinements, too. -/
inductive EscapeKind where
  | badValue
  | badType
  | missingAttribute
  | missingKey
  | badIndex
  | badSchema
  | undecodable
  | unreadableMetadata
  | badProject
  | file (errno : Errno)
  /-- What is going on goes deeper than there is room for. -/
  | recursion
  | exit
  | interrupt
  /-- Any other kind, by its name. -/
  | other (name : String)
deriving DecidableEq, Repr

/-- A failure that no report on a document covers. For a request to exit the
message is the status. -/
structure Escape where
  kind : EscapeKind
  message : String
deriving DecidableEq, Repr

/-- The failure to write an integer beyond the limit of digits. -/
def Escape.unwritable : Escape :=
  ⟨.badValue, s!"Exceeds the limit ({numeralLimit} digits) for integer string conversion; " ++
    "use sys.set_int_max_str_digits() to increase the limit"⟩

/-- The failure of a kind with a message that some values are written into. If one
of them cannot be written, it is that which fails. -/
def Escape.about (kind : EscapeKind) (values : List Value) (message : String) : Escape :=
  if values.all Value.isWritable then ⟨kind, message⟩ else .unwritable

/-- The text that a value stands for, if it can be written. -/
def Value.write (value : Value) : Except Escape String :=
  if value.isWritable then .ok value.display else .error .unwritable

theorem Value.write_eq_ok_iff {value : Value} {text : String} :
    value.write = .ok text ↔ value.isWritable ∧ text = value.display := by
  unfold Value.write
  split
  · rename_i writable
    exact ⟨fun same => ⟨writable, (Except.ok.inj same).symm⟩, fun both => congrArg _ both.2.symm⟩
  · rename_i unwritable
    exact iff_of_false nofun fun both => unwritable both.1

theorem Value.write_eq_error_iff {value : Value} {found : Escape} :
    value.write = .error found ↔ value.isWritable = false ∧ found = .unwritable := by
  unfold Value.write
  split
  · rename_i writable
    exact iff_of_false nofun fun both => absurd writable (Bool.eq_false_iff.mp both.1)
  · rename_i unwritable
    exact ⟨fun same => ⟨eq_false_of_ne_true unwritable, (Except.error.inj same).symm⟩,
      fun both => congrArg _ both.2.symm⟩

/-- What is wrong with the markup of a document. -/
inductive MarkupCause where
  | paramsOnEnd
  | unterminated
  | illegal (characters : Value)
  | grammar (detail : Value)
  | unclosed
  | unopened
  | tooDeep (levels : Value)
  | unspecified (kind : String)
deriving Repr

/-- What a fault is about. Generators are known by what they are shown as. -/
inductive Cause where
  /-- The markup is wrong at the marker with this text. -/
  | markup (cause : MarkupCause) (source : Text)
  /-- The generator gave this reason for failing. -/
  | failure (generator action params reason : Value)
  /-- The generator answered something that is no reply. -/
  | noReply (generator action params answer : Value)
  | unknownNamespace (namespaceName : Value)
  | unknownAction (action namespaceName generator declared : Value)
  | undefinedVariable (name : Value)
  | invalidParams (detail namespaceName generator action : Value)
  | file (reason : Value)
  | tooDeep (levels : Value)
  | other (kind : String) (detail : Value)
deriving Repr

structure Fault where
  cause : Cause
  loc : Option Position
  file : Option String
deriving Repr

/-- Why work on a document stops: a fault to report, or a failure that is none. -/
inductive Halt where
  | fault (fault : Fault)
  | escape (escape : Escape)
deriving Repr

/-- The report that a computation ended in, if it did. -/
def fault? {α : Type} : Except Halt α → Option Fault
  | .error (.fault reported) => some reported
  | _ => none

theorem eq_error_of_fault? {α : Type} {outcome : Except Halt α} {reported : Fault}
    (ended : fault? outcome = some reported) : outcome = .error (.fault reported) := by
  unfold fault? at ended
  split at ended
  · cases ended
    rfl
  · cases ended

/-- The failure without a report that a computation ended in, if it did. -/
def escape? {α : Type} : Except Halt α → Option Escape
  | .error (.escape found) => some found
  | _ => none

theorem eq_error_of_escape? {α : Type} {outcome : Except Halt α} {found : Escape}
    (ended : escape? outcome = some found) : outcome = .error (.escape found) := by
  unfold escape? at ended
  split at ended
  · cases ended
    rfl
  · cases ended

namespace MarkupCause

/-- The name of the kind of cause. -/
def kind : MarkupCause → String
  | .paramsOnEnd => "illegal_block_end_params"
  | .unterminated => "unterminated_comment_tag"
  | .illegal _ => "syntax_error"
  | .grammar _ => "syntax_error"
  | .unclosed => "no_block_end"
  | .unopened => "no_block_start"
  | .tooDeep _ => "nesting_too_deep"
  | .unspecified kind => kind

/-- The message about the marker with text `source`, which stands at `place`. -/
def message (place source : String) : MarkupCause → String
  | .paramsOnEnd => s!"cannot set arguments on block end at {place}: {source}"
  | .unterminated => s!"HTML comment closing bracket not found {place}: {source}"
  | .unclosed => s!"no block end found for block start at {place}: {source}"
  | .tooDeep levels => s!"directives nested too deeply at {place}, {levels.display} levels: {source}"
  | .unopened => s!"no block start found for block end at {place}: {source}"
  | .illegal characters => s!"syntax error before {characters.display} in {place}: {source}"
  | .grammar detail => s!"parse error in {place}, {detail.display}: {source}"
  | .unspecified _ => s!"parse error in {place}: {source}"

end MarkupCause

namespace Cause

/-- The name of the kind of cause. -/
def kind : Cause → String
  | .markup cause _ => cause.kind
  | .failure .. => "generator_error"
  | .noReply .. => "invalid_generator_return"
  | .unknownNamespace _ => "unresolved_generator"
  | .unknownAction .. => "unknown_action"
  | .undefinedVariable _ => "undef_var"
  | .invalidParams .. => "params_validation_error"
  | .file _ => "file_error"
  | .tooDeep _ => "nesting_too_deep"
  | .other kind _ => kind

/-- The detail of the cause as one value. -/
def detail : Cause → Value
  | .markup (.illegal characters) _ => .tuple [.text "illegal", characters]
  | .markup (.grammar detail) _ => .tuple [.text "syntax", detail]
  | .markup (.tooDeep levels) _ => levels
  | .markup _ _ => .none
  | .failure generator action params reason => .tuple [generator, action, params, reason]
  | .noReply generator action params answer => .tuple [generator, action, params, answer]
  | .unknownNamespace namespaceName => namespaceName
  | .unknownAction action namespaceName generator declared =>
    .tuple [action, .tuple [namespaceName, generator, declared]]
  | .undefinedVariable name => name
  | .invalidParams detail namespaceName generator action =>
    .tuple [detail, .tuple [namespaceName, generator, action]]
  | .file reason => reason
  | .tooDeep levels => levels
  | .other _ detail => detail

/-- The values that the message about the cause is to hold. -/
def told : Cause → List Value
  | .markup (.illegal characters) _ => [characters]
  | .markup (.grammar detail) _ => [detail]
  | .markup (.tooDeep levels) _ => [levels]
  | .markup _ _ => []
  | .failure generator action params reason => [generator, action, params, reason]
  | .noReply generator action params answer => [generator, action, params, answer]
  | .unknownNamespace namespaceName => [namespaceName]
  | .unknownAction action namespaceName generator _ => [action, namespaceName, generator]
  | .undefinedVariable name => [name]
  | .invalidParams detail namespaceName generator action =>
    [detail, namespaceName, generator, action]
  | .file reason => [reason]
  | .tooDeep levels => [levels]
  | .other _ detail => [detail]

end Cause

namespace Fault

/-- The file and, where it is known, the position. -/
def place (fault : Fault) : String :=
  let file := fault.file.getD "None"
  match fault.loc with
  | none => file
  | some loc => s!"{file}:{loc.text}"

/-- The report for the reader of the document. -/
def message (fault : Fault) : String :=
  let place := fault.place
  match fault.cause with
  | .markup cause source => cause.message place (String.ofList (Text.trimNewlines source))
  | .failure generator action params reason =>
    s!"generator error in {place}, " ++
      s!"({generator.shown}, {action.shown}, {params.shown}), got: {reason.shown}"
  | .unknownNamespace namespaceName =>
    s!"unknown generator namespace error in {place}, " ++
      s!"no generator registered for {namespaceName.shown}"
  | .noReply generator action params answer =>
    s!"invalid generator return value in {place}, " ++
      s!"({generator.shown}, {action.shown}, {params.shown}), " ++
      s!"expected Success or Failure, got: {answer.shown}"
  | .file (.text "eisdir") =>
    "updating directories is not supported yet, tried to update " ++ fault.file.getD "None"
  | .file reason =>
    "file error when accessing " ++ fault.file.getD "None" ++ ", got: " ++ reason.display
  | .undefinedVariable name => s!"undefined variable ${name.display} in {place}"
  | .unknownAction action namespaceName generator _ =>
    s!"unknown action {namespaceName.display}:{action.display} in {place} " ++
      s!"for generator {generator.shown}"
  | .invalidParams detail namespaceName generator action =>
    s!"invalid params for {namespaceName.display}:{action.display} in {place} " ++
      s!"for generator {generator.shown}, {detail.display}"
  | .tooDeep levels => s!"directives nested too deeply in {place}, {levels.display} levels"
  | .other kind detail => s!"{kind} in {place}: {detail.shown}"

/-- Whether the report can be written. -/
def isWritable (fault : Fault) : Bool := fault.cause.told.all Value.isWritable

end Fault

/-- Stops with a report, which is written at once. -/
def Halt.report (fault : Fault) : Halt :=
  if fault.isWritable then .fault fault else .escape .unwritable

namespace Cause

/-- Exactly `count` parts of a value. -/
private def unpack (count : Nat) (value : Value) : Except Escape (List Value) :=
  match value.parts? with
  | none => .error ⟨.badType, s!"cannot unpack non-iterable {value.kindName} object"⟩
  | some parts =>
    if parts.length < count then
      .error ⟨.badValue, s!"not enough values to unpack (expected {count}, got {parts.length})"⟩
    else if count < parts.length then
      .error ⟨.badValue, s!"too many values to unpack (expected {count})"⟩
    else .ok parts

/-- The part of a value at an index, counted from zero. -/
private def part (value : Value) (index : Nat) : Except Escape Value :=
  match value with
  | .list items => (items[index]?).elim (.error ⟨.badIndex, "list index out of range"⟩) .ok
  | .tuple items => (items[index]?).elim (.error ⟨.badIndex, "tuple index out of range"⟩) .ok
  | .text s =>
    (s.toList[index]?).elim (.error ⟨.badIndex, "string index out of range"⟩)
      fun c => .ok (.text (String.singleton c))
  | .table entries =>
    (Table.get? entries (.int index)).elim (.error ⟨.missingKey, toString index⟩) .ok
  | value => .error ⟨.badType, s!"'{value.kindName}' object is not subscriptable"⟩

/-- The cause of a kind with a detail; the detail has to have the shape that
the message of the kind needs. -/
def ofDetail (kind : String) (detail : Value) : Except Escape Cause :=
  match kind with
  | "generator_error" => do
    match ← unpack 4 detail with
    | [generator, action, params, reason] => return .failure generator action params reason
    | _ => return .other kind detail
  | "invalid_generator_return" => do
    match ← unpack 4 detail with
    | [generator, action, params, answer] => return .noReply generator action params answer
    | _ => return .other kind detail
  | "unknown_action" => do
    match ← unpack 2 detail with
    | [action, context] =>
      match ← unpack 3 context with
      | [namespaceName, generator, declared] =>
        return .unknownAction action namespaceName generator declared
      | _ => return .other kind detail
    | _ => return .other kind detail
  | "params_validation_error" => do
    match ← unpack 2 detail with
    | [what, context] =>
      match ← unpack 3 context with
      | [namespaceName, generator, action] =>
        return .invalidParams what namespaceName generator action
      | _ => return .other kind detail
    | _ => return .other kind detail
  | "unresolved_generator" => return .unknownNamespace detail
  | "undef_var" => return .undefinedVariable detail
  | "file_error" => return .file detail
  | "nesting_too_deep" => return .tooDeep detail
  | kind => return .other kind detail

end Cause

/-- The cause of a kind of markup fault with a detail. Only the syntax error
looks into its detail, whose first part tells a lexical from a grammatical one. -/
def MarkupCause.ofDetail (kind : String) (detail : Value) : Except Escape MarkupCause :=
  match kind with
  | "illegal_block_end_params" => return .paramsOnEnd
  | "unterminated_comment_tag" => return .unterminated
  | "no_block_end" => return .unclosed
  | "no_block_start" => return .unopened
  | "nesting_too_deep" => return .tooDeep detail
  | "syntax_error" => do
    if detail.isTruthy then
      let first ← Cause.part detail 0
      let second ← Cause.part detail 1
      match first with
      | .text "illegal" => return .illegal second
      | _ => return .grammar second
    else return .unspecified kind
  | kind => return .unspecified kind

end Regen
