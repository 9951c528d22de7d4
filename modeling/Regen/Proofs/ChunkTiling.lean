import Regen.Proofs.BracketMachine
import Regen.Proofs.ScanSemantics

/-! Chunks tile the document: in order they are its text, character for
character, and every boundary between them is where an opener begins or a marker
ends. Matching keeps every chunk once and in place, so the document parsed has
the same text. -/
namespace Regen.Chunk

/-- How a marker is written where `rest` follows it: one opener, what is between
it and the closer, the closer, and the line break that stands there, if any. -/
def IsMarker (settings : Settings) (raw rest : Text) : Prop :=
  ∃ opener content closer lineBreak, opener ∈ settings.openers ∧
    raw = opener ++ (content ++ closer ++ lineBreak) ∧
    Closes (content ++ closer ++ lineBreak ++ rest) content closer (lineBreak ++ rest) ∧
    Owns lineBreak rest

/-- How a chunk stands before the chunks after it: text is there, runs up to a
marker or the end and holds no opener, and a marker is written in full. -/
def Stands (settings : Settings) (rest : List Chunk) : Chunk → Prop
  | .text content _ => content ≠ [] ∧ (∀ next ∈ rest.head?, ¬next.isText) ∧
    Clear settings content (rest.flatMap Chunk.source)
  | .start marker => IsMarker settings marker.raw (rest.flatMap Chunk.source)
  | .stop marker => IsMarker settings marker.raw (rest.flatMap Chunk.source)

/-- Chunks that are a text cut at its markers. -/
structure Tiles (settings : Settings) (text : Text) (chunks : List Chunk) : Prop where
  covers : chunks.flatMap Chunk.source = text
  stands : ∀ before chunk after, chunks = before ++ chunk :: after → Stands settings after chunk

section Tiles
variable {settings : Settings} {text : Text} {chunks : List Chunk}

theorem Tiles.nil : Tiles settings [] [] :=
  ⟨rfl, by simp⟩

theorem Tiles.cons (chunk : Chunk) (stands : Stands settings chunks chunk)
    (tiles : Tiles settings text chunks) :
    Tiles settings (chunk.source ++ text) (chunk :: chunks) := by
  refine ⟨by rw [List.flatMap_cons, tiles.covers], ?_⟩
  exact forall_split_cons_iff.mpr ⟨stands, tiles.stands⟩

/-- A run of text in front of a tiling is one chunk more, unless it is empty. -/
theorem Tiles.run {run : Text} (loc : Position) (clear : Clear settings run text)
    (marker : ∀ next ∈ chunks.head?, ¬next.isText) (tiles : Tiles settings text chunks) :
    Tiles settings (run ++ text) (ofRun run loc ++ chunks) := by
  cases run with
  | nil => exact tiles
  | cons c run =>
    refine Tiles.cons (.text (c :: run) loc) ⟨by simp, marker, ?_⟩ tiles
    exact tiles.covers.symm ▸ clear

end Tiles

theorem Cut.isMarker {settings : Settings} (cut : Cut settings) :
    IsMarker settings cut.raw cut.rest :=
  ⟨cut.opener, cut.header, cut.closer, cut.lineBreak, cut.opens, rfl,
    closes_of_untilCloser cut.closes, cut.owns⟩

theorem Scans.tiles {settings : Settings} {file : String} {loc : Position} {text : Text}
    {outcome : Except Halt (List Chunk)} (scans : Scans settings file loc text outcome)
    (chunks : List Chunk) (done : outcome = .ok chunks) : Tiles settings text chunks := by
  induction scans generalizing chunks with
  | @plain loc text clear =>
    cases done
    have run := Tiles.run loc clear (by simp) Tiles.nil
    simpa using run
  | unclosed => cases done
  | refused => cases done
  | @marked loc marker outcome cut reads more ih =>
    cases outcome with
    | error halt => cases done
    | ok rest =>
      cases done
      obtain ⟨written, raw, -⟩ := ofMarker_ok reads
      have tiles := ih rest rfl
      have stands : Stands settings rest marker := by
        cases marker with
        | text => cases written
        | start marker =>
          rw [Stands, tiles.covers, show marker.raw = cut.raw from raw]
          exact cut.isMarker
        | stop marker =>
          rw [Stands, tiles.covers, show marker.raw = cut.raw from raw]
          exact cut.isMarker
      refine Tiles.run loc cut.clear ?_ (raw ▸ Tiles.cons marker stands tiles)
      rintro next first
      simp_all

end Regen.Chunk

namespace Regen.Bracket

/-- Matching keeps every chunk, in order. -/
theorem Spells.source {chunks : List Chunk} {nodes : List Node} (spells : Spells chunks nodes) :
    Node.sourceAll nodes = chunks.flatMap Chunk.source := by
  induction spells with
  | nil => rfl
  | text _ ih => simp [Node.sourceAll, Node.source, Chunk.source, ih]
  | block _ _ _ inside after =>
    simp [Node.sourceAll, Node.source, Chunk.source, inside, after]

end Regen.Bracket

namespace Regen.Document
open Chunk

/-- A document that is parsed is spelled by the chunks of its text. -/
theorem spells_of_parse {limit : Nat} {settings : Settings} {file : Option String} {text : Text}
    {document : Document} (parsed : parse limit settings file text = .ok document) :
    ∃ chunks, scan settings (nameIn settings file) text = .ok chunks ∧
      Bracket.Spells chunks document.nodes := by
  unfold parse at parsed
  cases scanned : scan settings (nameIn settings file) text with
  | error halt => simp [scanned] at parsed
  | ok chunks =>
    simp only [scanned, ofChunks] at parsed
    split at parsed
    · rename_i siblings matched
      cases parsed
      exact ⟨chunks, rfl, Bracket.spells_of_matchBlocks matched⟩
    · cases parsed

theorem source_of_parse {limit : Nat} {settings : Settings} {file : Option String} {text : Text}
    {document : Document} (parsed : parse limit settings file text = .ok document) :
    document.source = text := by
  obtain ⟨chunks, scanned, spells⟩ := spells_of_parse parsed
  rw [source, spells.source]
  exact ((scanFrom_scans settings _ .start text).tiles chunks scanned).covers

/-- The chunks of a document are its text cut at the markers, and the document
that is parsed from it has the text back. -/
theorem scan_tiles_parse_restores (settings : Settings) (text : Text) :
    (∀ file chunks, scan settings file text = .ok chunks → Tiles settings text chunks) ∧
    (∀ limit file document, parse limit settings file text = .ok document →
      document.source = text) := by
  have tiles : ∀ file chunks, scan settings file text = .ok chunks → Tiles settings text chunks :=
    fun file chunks scanned => (scanFrom_scans settings file .start text).tiles chunks scanned
  exact ⟨tiles, fun limit file document parsed => source_of_parse parsed⟩

def blockText : Text := "<!-- rdmx :x -->\n\n<!--- rdmx /:x --->".toList

/-- The line break after the first marker is its own, and so is the third dash of
the second one. -/
def blockChunks : List Chunk :=
  [.start ⟨⟨"rdmx", "x"⟩, [], "<!-- rdmx :x -->\n".toList, ⟨1, 11⟩⟩, .text ['\n'] ⟨2, 1⟩,
    .stop ⟨⟨"rdmx", "x"⟩, "<!--- rdmx /:x --->".toList, ⟨3, 12⟩⟩]

theorem tiles_block_restores : Tiles .standard blockText blockChunks ∧
    ∃ document, parse 1 .standard none blockText = .ok document ∧ document.source = blockText := by
  have restores := scan_tiles_parse_restores .standard blockText
  have scanned : (scan .standard "" blockText).toOption = some blockChunks := by decide +kernel
  have parsed : (parse 1 .standard none blockText).toBool = true := by decide +kernel
  constructor
  · cases found : scan .standard "" blockText with
    | error halt => simp [found, Except.toOption] at scanned
    | ok chunks =>
      simp only [found, Except.toOption, Option.some.injEq] at scanned
      exact scanned ▸ restores.1 "" chunks found
  · cases found : parse 1 .standard none blockText with
    | error halt => simp [found, Except.toBool] at parsed
    | ok document => exact ⟨document, rfl, restores.2 1 none document found⟩

end Regen.Document
