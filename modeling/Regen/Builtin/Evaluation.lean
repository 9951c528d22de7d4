import Regen.Builtin.Fence
import Regen.Generator

/-! Evaluation of the code in a section. The first fenced block of the section
is run and its value takes the place of the directive's body; what running code
does is an outside matter and enters as a function of the code. -/
namespace Regen

/-- What becomes of a piece of code. -/
inductive Evaluation where
  /-- It runs and has a value, printed. -/
  | value (printed : String)
  /-- It runs and has a value that cannot be printed. -/
  | unprintable (escape : Escape)
  /-- It runs into an exception with this banner. -/
  | raised (banner : String)
  /-- It runs into something that is not caught, such as a request to leave the program. -/
  | leaves (escape : Escape)
  /-- It is no code: the complaint, and the line of the code it is about. -/
  | malformed (line : Option Int) (message : String)
  /-- It cannot be made ready to run for another reason. -/
  | uncompilable (escape : Escape)
deriving Repr

/-- What becomes of each piece of code. -/
abbrev Evaluator := Text → Evaluation

namespace Evaluation

/-- The only language that is run. -/
def language : String := "python"

/-- A fenced block. -/
def fenced (tag content : String) : Text :=
  ("```" ++ tag ++ "\n" ++ content ++ "\n```\n").toList

/-- The answer to code found at a line of a file; with `catches` the banner of
an exception is content, too. -/
def reply (file : String) (line : Int) (catches : Bool) : Evaluation → Reply
  | .value printed => .content (fenced language printed)
  | .unprintable escape => .escape escape
  | .raised banner =>
    if catches then .content (fenced "" banner)
    else .failure (.tuple [.text "eval_error", .text banner])
  | .leaves escape => .escape escape
  | .malformed at? message =>
    let place := match at? with
      | none => "None"
      | some offset => toString (line - 1 + offset)
    .failure (.text s!"invalid python code in {file}:{place}: {message}")
  | .uncompilable escape => .escape escape

/-- The answer to the code of a section; `name` is how it was asked for. -/
def replySection (evaluate : Evaluator) (file : String) (name : Value) (catches : Bool)
    (found : Section) : Reply :=
  let line := found.call.loc.line + Text.lineFeeds found.call.block.start.raw
  match Fence.split found.content line with
  | .error opened =>
    .failure (.tuple [.text "invalid_code_block", .text (Fence.unclosedMessage opened)])
  | .ok parts =>
    match Fence.firstCode? parts with
    | none => .failure (.tuple [.text "code_block_not_found", name])
    | some (tag, start, code) =>
      if tag ≠ language.toList then
        let given := if tag.isEmpty then "none" else String.ofList tag
        .failure (.tuple [.text "unsupported_language", .text given])
      else if file.toList.contains '\x00' then .escape ⟨.badValue, "embedded null character"⟩
      else if code.contains '\x00' then
        .escape ⟨.badValue, "source code string cannot contain null bytes"⟩
      else reply file start catches (evaluate code)

/-- Evaluates the section that the parameters name. -/
def generate (evaluate : Evaluator) (params : Table) (context : Context) : Script :=
  let name := (params.at? "section").getD .none
  let catches := ((params.at? "catch").getD .none).isTruthy
  match name with
  | .text text =>
    match context.section? text with
    | none => .reply (.failure (.tuple [.text "section_not_found", name]))
    | some found => .reply (replySection evaluate context.file name catches found)
  | _ => .reply (.failure (.tuple [.text "section_not_found", name]))

end Evaluation
end Regen
