import Regen.Document
import Regen.Surroundings

/-! Excerpts: the content of a named section of a file, as it is written there. -/
namespace Regen

namespace Node

/-- Whether a block is the section of a name: its only parameter is the name. -/
def isSection (namespaceName name : String) (block : Block) : Bool :=
  block.start.name = ⟨namespaceName, "section"⟩ &&
    block.start.params.map (fun param => (param.key, param.value)) = [("name", .text name)]

mutual

/-- The content of the first section of a name in a node, outer ones first. -/
def section? (namespaceName name : String) : Node → Option (List Node)
  | .text _ => none
  | .block block body =>
    if isSection namespaceName name block then some body else sectionOf? namespaceName name body

/-- The content of the first section of a name in several nodes. -/
def sectionOf? (namespaceName name : String) : List Node → Option (List Node)
  | [] => none
  | node :: more =>
    match section? namespaceName name node with
    | some body => some body
    | none => sectionOf? namespaceName name more

end

end Node

namespace Document

/-- The text of the first section of a name in a document. -/
def excerpt? (document : Document) (namespaceName name : String) : Option Text :=
  (Node.sectionOf? namespaceName name document.nodes).map Node.sourceAll

end Document

/-- The text of a named section of a file. -/
def Surroundings.excerpt (surroundings : Surroundings) (path name : String) : Except Halt Text :=
  match surroundings.files.read (Path.ofString path) with
  | .error fault => .error (.escape fault.toEscape)
  | .ok content =>
    match Utf8.decode content with
    | .error fault => .error (.escape fault.toEscape)
    | .ok text =>
      match Document.parse surroundings.limits.nesting surroundings.settings (some path) text with
      | .error halt => .error halt
      | .ok document =>
        match document.excerpt? surroundings.settings.defaultNamespace name with
        | some content => .ok content
        | none =>
          .error (.escape ⟨.badValue, s!"section {quote name} could not be found in {path}"⟩)

end Regen
