import Regen.Proofs.BracketMachine
import Regen.Proofs.Forests
import Regen.Proofs.LegibleChunks

/-! Parsing a forest back from its own text. The chunks of a parsed document are
legible; a forest whose chunks are legible, parsed or put together otherwise, is
what its text is parsed to, the positions apart. -/
namespace Regen

namespace Node

/-- The chunk that a block starts with. -/
def bareStart (block : Block) : Chunk.Bare :=
  .start block.start.name (block.start.params.map Header.Parameter.entry) block.start.raw

/-- The chunk that a block ends with. -/
def bareStop (block : Block) : Chunk.Bare := .stop block.start.name block.footer

mutual

/-- The chunks that spell a node. -/
def bares : Node → List Chunk.Bare
  | .text content => [.text content]
  | .block block body => bareStart block :: (baresAll body ++ [bareStop block])

/-- The chunks that spell several nodes. -/
def baresAll : List Node → List Chunk.Bare
  | [] => []
  | node :: more => bares node ++ baresAll more

end

section Bares
variable {block : Block} {content : Text} {body more : List Node}

@[simp] theorem baresAll_nil : baresAll [] = [] := rfl

@[simp] theorem baresAll_text :
    baresAll (.text content :: more) = .text content :: baresAll more := rfl

@[simp] theorem baresAll_block : baresAll (.block block body :: more) =
    bareStart block :: (baresAll body ++ bareStop block :: baresAll more) := by
  simp [baresAll, bares]

theorem source_baresAll (nodes : List Node) :
    (baresAll nodes).flatMap Chunk.Bare.source = sourceAll nodes := by
  induction nodes using Tree.forest_induction with
  | nil => rfl
  | text content more ih => simp [sourceAll, source, Chunk.Bare.source, ih]
  | block block body more inside after =>
    simp [sourceAll, source, bareStart, bareStop, Chunk.Bare.source, inside, after]

end Bares
end Node

namespace Bracket
open Node

theorem bares_of_spells {chunks : List Chunk} {nodes : List Node} (spells : Spells chunks nodes) :
    chunks.map Chunk.bare = baresAll nodes := by
  induction spells with
  | nil => rfl
  | text _ ih => simp [Chunk.bare, ih]
  | block same _ _ inside after => simp [Chunk.bare, bareStart, bareStop, inside, after, same]

/-- Chunks that say what the chunks of a forest say spell such a forest. -/
theorem spells_of_bares (nodes : List Node) {chunks : List Chunk} {more : List Chunk.Bare}
    (said : chunks.map Chunk.bare = baresAll nodes ++ more) :
    ∃ inner rest nodes', chunks = inner ++ rest ∧ Spells inner nodes' ∧
      Tree.relabelAll Block.reading nodes' = Tree.relabelAll Block.reading nodes ∧
      rest.map Chunk.bare = more := by
  induction nodes using Tree.forest_induction generalizing chunks more with
  | nil => exact ⟨[], chunks, [], rfl, .nil, rfl, said⟩
  | text content nodes ih =>
    rw [baresAll_text, List.cons_append, List.map_eq_cons_iff] at said
    obtain ⟨chunk, chunks, rfl, first, said⟩ := said
    obtain ⟨inner, rest, nodes', rfl, spells, same, after⟩ := ih said
    cases chunk with
    | text content' loc =>
      cases first
      exact ⟨.text content loc :: inner, rest, .text content :: nodes', rfl, .text spells,
        by simp [same], after⟩
    | start => cases first
    | stop => cases first
  | block block body nodes inside outside =>
    rw [baresAll_block, List.cons_append, List.append_assoc, List.map_eq_cons_iff] at said
    obtain ⟨first, chunks, rfl, opens, said⟩ := said
    obtain ⟨inner, _, body', rfl, bodySpells, bodySame, said⟩ := inside said
    rw [List.cons_append, List.map_eq_cons_iff] at said
    obtain ⟨last, chunks, rfl, closes, said⟩ := said
    obtain ⟨between, rest, nodes', rfl, spells, same, after⟩ := outside said
    cases first with
    | text => cases opens
    | stop => cases opens
    | start start =>
      cases last with
      | text => cases closes
      | start => cases closes
      | stop stop =>
        simp only [Chunk.bare, bareStart, bareStop, Chunk.Bare.start.injEq, Chunk.Bare.stop.injEq]
          at opens closes
        obtain ⟨named, entries, header⟩ := opens
        obtain ⟨named', footer⟩ := closes
        refine ⟨.start start :: (inner ++ .stop stop :: between), rest,
          .block ⟨start, stop.raw⟩ body' :: nodes', by simp,
          .block (named'.trans named.symm) bodySpells spells, ?_, after⟩
        simp [Block.reading, same, bodySame, named, entries, header, footer]

/-- The machine has as many blocks open at a time as the forest is high. -/
theorem peak_of_spells {chunks : List Chunk} {nodes : List Node} (file : String)
    (spells : Spells chunks nodes) (state : State) (more : List Chunk) :
    peak file state (chunks ++ more) ≤
      max (state.frames.length + Tree.heightAll nodes) (peak file (state.add nodes) more) := by
  induction spells generalizing state more with
  | nil =>
    rw [State.add_nil]
    exact Nat.le_max_right ..
  | @text content loc chunks nodes _ ih =>
    have later := ih (state.add [.text content]) more
    rw [State.add_add, State.frames_add] at later
    change max _ (peak file (state.add [.text content]) (chunks ++ more)) ≤ _
    simp only [Tree.heightAll_text, List.singleton_append] at later ⊢
    omega
  | @block start stop inner chunks body nodes same _ _ inside after =>
    have within := inside (state.push start) (.stop stop :: (chunks ++ more))
    have later := after (state.add [.block ⟨start, stop.raw⟩ body]) more
    rw [peak, step_stop_push same] at within
    rw [State.add_add, State.frames_add] at later
    rw [List.cons_append, List.append_assoc, List.cons_append]
    change max _ (peak file (state.push start) (inner ++ _)) ≤ _
    simp only [Tree.heightAll_block, State.frames_add, State.frames_push, List.length_cons,
      List.singleton_append] at within later ⊢
    omega

end Bracket

namespace Document
open Chunk

section Heights
variable {room : Nat} {expected : Option Header.ActionName} {chunks : List Chunk}
  {siblings : Siblings chunks.length}

/-- The blocks that are matched are not deeper inside one another than there is room. -/
theorem heightAll_le_of_matchBlocks (matched : matchBlocks room expected chunks = .ok siblings) :
    Tree.heightAll siblings.nodes ≤ room := by
  fun_induction matchBlocks room expected chunks with
  | case1 =>
    cases matched
    exact Nat.zero_le _
  | case3 room expected content loc more later read ih =>
    cases matched
    simpa [Siblings.push] using ih read
  | case8 expected start more room body stop rest shorter read later read' inside after =>
    cases matched
    have within := inside read
    have beside := after read'
    simp only [Siblings.push, Tree.heightAll_block] at within ⊢
    omega
  | case9 room stop more =>
    cases matched
    exact Nat.zero_le _
  | _ => cases matched

/-- A document that is parsed stays within the limit of nesting. -/
theorem heightAll_le_of_parse {limit : Nat} {settings : Settings} {file : Option String} {text : Text}
    {document : Document} (parsed : parse limit settings file text = .ok document) :
    Tree.heightAll document.nodes ≤ limit := by
  unfold parse ofChunks at parsed
  split at parsed
  · cases parsed
  · split at parsed
    · rename_i matched
      cases parsed
      exact heightAll_le_of_matchBlocks matched
    · cases parsed

end Heights

theorem file_of_parse {limit : Nat} {settings : Settings} {file : Option String} {text : Text}
    {document : Document} (parsed : parse limit settings file text = .ok document) :
    document.file = nameIn settings file := by
  unfold parse ofChunks at parsed
  split at parsed
  · cases parsed
  · split at parsed
    · cases parsed
      rfl
    · cases parsed

theorem legible_of_parse {limit : Nat} {file : Option String} {text : Text} {document : Document}
    (parsed : parse limit .standard file text = .ok document) :
    Legible (Node.baresAll document.nodes) := by
  unfold parse at parsed
  cases scanned : scan .standard (nameIn .standard file) text with
  | error halt => simp [scanned] at parsed
  | ok chunks =>
    simp only [scanned, ofChunks] at parsed
    split at parsed
    · rename_i siblings matched
      cases parsed
      rw [← Bracket.bares_of_spells (Bracket.spells_of_matchBlocks matched)]
      exact (scanFrom_scans .standard _ .start text).legible scanned
    · cases parsed

/-- Chunks are matched to the forest that they spell, up to the limit. -/
theorem ofChunks_of_spells {limit : Nat} (file : String) {chunks : List Chunk} {nodes : List Node}
    (spells : Bracket.Spells chunks nodes) (shallow : Tree.heightAll nodes ≤ limit) :
    ofChunks limit file chunks = .ok ⟨file, nodes⟩ := by
  have low : Bracket.peak file .initial chunks ≤ limit := by
    have bound := Bracket.peak_of_spells file spells .initial []
    rw [List.append_nil] at bound
    simp only [Bracket.peak, Bracket.State.initial, Bracket.State.add, List.length_nil] at bound ⊢
    omega
  rw [Bracket.ofChunks_of_shallow low, Bracket.read_eq_ok_iff.mpr spells]

/-- The text of a legible forest is parsed to such a forest. -/
theorem parse_of_legible {limit : Nat} (file : Option String) {nodes : List Node}
    (legible : Legible (Node.baresAll nodes)) (shallow : Tree.heightAll nodes ≤ limit) :
    ∃ document, parse limit .standard file (Node.sourceAll nodes) = .ok document ∧
      document.file = nameIn .standard file ∧
      Tree.relabelAll Block.reading document.nodes = Tree.relabelAll Block.reading nodes := by
  obtain ⟨chunks, scanned, said⟩ := scan_legible (nameIn .standard file) _ legible .start
  rw [Node.source_baresAll] at scanned
  rw [← List.append_nil (Node.baresAll nodes)] at said
  obtain ⟨inner, rest, nodes', rfl, spells, same, nothing⟩ := Bracket.spells_of_bares nodes said
  obtain rfl := List.map_eq_nil_iff.mp nothing
  rw [List.append_nil] at scanned
  have high : Tree.heightAll nodes' = Tree.heightAll nodes := by
    rw [← Tree.heightAll_relabelAll Block.reading, same, Tree.heightAll_relabelAll]
  have built := ofChunks_of_spells (nameIn .standard file) spells (high ▸ shallow)
  refine ⟨⟨nameIn .standard file, nodes'⟩, ?_, rfl, same⟩
  simp only [parse, Chunk.scan, scanned, built]

end Document
end Regen
