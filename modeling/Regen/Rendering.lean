import Regen.Resolution

/-! Rendering: the generators of bound blocks are called in document order. A
block sees the siblings before it as rendered and those after it as bound; the
blocks inside it are rendered only if its generator asks, afresh each time. -/
namespace Regen

/-- Why rendering stops short. -/
inductive RenderStop where
  | tooDeep
  | halt (halt : Halt)
deriving Repr

/-- What a reply means for the document: new content, or a report about the
block that was called. -/
def Reply.settle (file : String) (call : Call) : Reply → Except Halt Text
  | .content text => .ok text
  | .failure reason => .error (.report ⟨call.failed reason, some call.loc, some file⟩)
  | .foreign answer =>
    .error (.report ⟨.noReply call.generatorValue (.text call.name.action)
      (.table call.params) answer, some call.loc, some file⟩)
  | .undefined name => .error (.report ⟨.undefinedVariable name, some call.loc, some file⟩)
  | .noSection name =>
    .error (.report ⟨call.failed (.tuple [.text "section_not_found", name]), some call.loc, some file⟩)
  | .escape found => .error (.escape found)

namespace Bindings

/-- What the generator of a call does. Calls are made by resolution, which
found the generator in the same registry. -/
def script (bindings : Bindings) (context : Context) : Script :=
  match bindings.registry.entry? context.call.name.namespaceName with
  | some entry =>
    entry.generator.generate context.call.name.action context.call.params context
  | none => .reply (.foreign .none)

/-- The text of what was rendered. -/
def output (file : String) (siblings : List Sibling) : Run RenderStop Text :=
  Run.ofExcept ((Fragment.outputAll file (siblings.map Sibling.fragment)).mapError fun found =>
    .halt (.escape found))

/-- Nothing that was rendered is without a text. -/
theorem output_eq (file : String) (siblings : List Sibling) :
    output file siblings = .pure (Sibling.outputAll siblings) := by
  rw [output, Fragment.outputAll_siblings]
  rfl

mutual

/-- A tree rendered among its siblings; `room` levels can be rendered inside it. -/
def render (bindings : Bindings) (file : String) (room : Nat) (previous : List Sibling)
    (following : List (Tree Call)) : Tree Call → Run RenderStop Sibling
  | .text content => .pure (.text content)
  | .block call body =>
    let children : Run RenderStop Text :=
      match room with
      | 0 => .fail .tooDeep
      | room + 1 => (renderAll bindings file room [] body).bind (output file)
    let context : Context := ⟨file, call, body, previous, following, bindings.vars⟩
    (Run.record (.rendering call.name file call.loc)).bind fun _ =>
      ((bindings.script context).run children).bind fun reply =>
        (Run.ofExcept ((reply.settle file call).mapError RenderStop.halt)).bind fun content =>
          .pure (.block call content)

/-- Siblings rendered after those before them. -/
def renderAll (bindings : Bindings) (file : String) (room : Nat) (previous : List Sibling) :
    List (Tree Call) → Run RenderStop (List Sibling)
  | [] => .pure previous
  | tree :: more =>
    (render bindings file room previous more tree).bind fun sibling =>
      renderAll bindings file room (previous ++ [sibling]) more

end

end Bindings
end Regen
