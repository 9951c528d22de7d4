import Regen.Document.Matching

/-! Documents: text files with marked blocks, parsed. The markup is read in two
passes, cutting the text into chunks and matching the markers among them, so a
marker at fault is reported before any block that is not closed. -/
namespace Regen

structure Document where
  /-- What the document is called in reports. -/
  file : String
  nodes : List Node
deriving DecidableEq, Repr

namespace Document

/-- The forest of blocks that chunks spell, if no more blocks than the limit are open
at a time. -/
def ofChunks (limit : Nat) (file : String) (chunks : List Chunk) : Except Halt Document :=
  match matchBlocks limit none chunks with
  | .ok siblings => .ok ⟨file, siblings.nodes⟩
  | .error fault => .error (.fault (fault.toFault file chunks))

/-- What a document is called: the file it comes from, or the name for those
that come from none. -/
def nameIn (settings : Settings) (file : Option String) : String :=
  file.getD settings.unnamedFile

/-- The document a text spells. -/
def parse (limit : Nat) (settings : Settings) (file : Option String) (source : Text) :
    Except Halt Document :=
  match Chunk.scan settings (nameIn settings file) source with
  | .error halt => .error halt
  | .ok chunks => ofChunks limit (nameIn settings file) chunks

/-- The text the document was parsed from. -/
def source (document : Document) : Text :=
  Node.sourceAll document.nodes

end Document
end Regen
