import Mathlib.Data.List.Forall2
import Regen.Proofs.Reparsing

/-! Documents as they may be written, and what is parsed from them. A printed
document is a forest of texts and blocks, with every choice an author has about
a marker: its opener and closer, the layout of its header and the line break
after it. Parsing gives back the forest, whatever was chosen. -/
namespace Regen

/-- What a marker is written between, and the line break after it. -/
structure Fence where
  opener : Text
  closer : Text
  lineBreak : Text
  opens : opener ∈ Settings.standard.openers
  closes : closer = ['-', '-', '>'] ∨ closer = ['-', '-', '-', '>']
  breaks : lineBreak = [] ∨ lineBreak = ['\n'] ∨ lineBreak = ['\r', '\n']

/-- A block and how its markers are written. -/
structure PrintedBlock where
  name : Header.PrintedName
  start : Header.PrintedStart
  startFence : Fence
  stop : Header.PrintedStop
  stopFence : Fence

def Fence.around (fence : Fence) (header : Text) : Text :=
  fence.opener ++ (header ++ fence.closer ++ fence.lineBreak)

def PrintedBlock.reading (block : PrintedBlock) : Reading :=
  ⟨block.name.actionName, block.start.params.map Header.PrintedParam.entry,
    block.startFence.around (block.start.text block.name),
    block.stopFence.around (block.stop.text block.name)⟩

/-- The block of a printed one, which stands nowhere. -/
def PrintedBlock.block (block : PrintedBlock) : Block :=
  ⟨⟨block.name.actionName, block.start.params.map fun param => ⟨param.entry.1, param.entry.2, .start⟩,
    block.startFence.around (block.start.text block.name), .start⟩,
    block.stopFence.around (block.stop.text block.name)⟩

namespace Printing

/-- The header of a marker. -/
inductive MarkerHeader where
  | start (name : Header.PrintedName) (layout : Header.PrintedStart)
  | stop (name : Header.PrintedName) (layout : Header.PrintedStop)

def MarkerHeader.text : MarkerHeader → Text
  | .start name layout => layout.text name
  | .stop name layout => layout.text name

/-- What a document is written from, piece by piece. -/
inductive Piece where
  | text (content : Text)
  | marker (fence : Fence) (header : MarkerHeader)

def Piece.source : Piece → Text
  | .text content => content
  | .marker fence header => fence.around header.text

mutual

/-- The pieces of a tree in the order in which they are written. -/
def pieces : Tree PrintedBlock → List Piece
  | .text content => [.text content]
  | .block block body =>
    .marker block.startFence (.start block.name block.start) ::
      (piecesAll body ++ [.marker block.stopFence (.stop block.name block.stop)])

/-- The pieces of several trees in the order in which they are written. -/
def piecesAll : List (Tree PrintedBlock) → List Piece
  | [] => []
  | tree :: more => pieces tree ++ piecesAll more

end

/-- The text of a forest. -/
def print (forest : List (Tree PrintedBlock)) : Text := (piecesAll forest).flatMap Piece.source

/-- Which piece may follow another: no text a text, and after a marker without
a line break no text that begins with one, as the marker would take it. -/
def Fits : Piece → Piece → Prop
  | .text _, .text _ => False
  | .marker fence _, .text content =>
    fence.lineBreak = [] → ¬['\n'] <+: content ∧ ¬['\r', '\n'] <+: content
  | _, .marker _ _ => True

/-- A text that is there and holds no opener. -/
def PlainText (content : Text) : Prop :=
  content ≠ [] ∧ ∀ opener ∈ Settings.standard.openers, ¬opener <:+: content

/-- Pieces that can be told apart once they are written. -/
structure Readable (written : List Piece) : Prop where
  plain : ∀ content, .text content ∈ written → PlainText content
  fits : written.IsChain Fits

/-- A forest that can be written: its pieces can be told apart, and no more
blocks are inside one another than may be. -/
structure Printable (limit : Nat) (forest : List (Tree PrintedBlock)) : Prop where
  readable : Readable (piecesAll forest)
  shallow : Tree.heightAll forest ≤ limit

/-- Every dash is followed by a character other than the angle bracket, so the
text holds no closer and ends in no part of one. -/
def Guarded (text : Text) : Prop :=
  ∀ rest, '-' :: rest <:+ text → ∃ c ∈ rest.head?, c ≠ '>'

section Guarded
variable {text more : Text} {c : Char}

theorem guarded_nil : Guarded [] := by
  intro rest suffix
  simp at suffix

theorem guarded_cons_iff :
    Guarded (c :: text) ↔ (c = '-' → ∃ d ∈ text.head?, d ≠ '>') ∧ Guarded text := by
  constructor
  · intro guarded
    refine ⟨?_, fun rest suffix => guarded rest (suffix.trans (List.suffix_cons ..))⟩
    rintro rfl
    exact guarded text (List.suffix_refl _)
  · rintro ⟨first, later⟩ rest suffix
    rcases List.suffix_cons_iff.mp suffix with same | suffix
    · obtain ⟨rfl, rfl⟩ := List.cons.inj same
      exact first rfl
    · exact later rest suffix

theorem Guarded.append (first : Guarded text) (second : Guarded more) : Guarded (text ++ more) := by
  induction text with
  | nil => exact second
  | cons c text ih =>
    obtain ⟨dash, later⟩ := guarded_cons_iff.mp first
    refine guarded_cons_iff.mpr ⟨fun same => ?_, ih later⟩
    obtain ⟨d, next, other⟩ := dash same
    exact ⟨d, List.mem_head?_append_of_mem_head? next, other⟩

theorem guarded_of_noDash (none : ∀ c ∈ text, c ≠ '-') : Guarded text := by
  intro rest suffix
  exact absurd rfl (none '-' (suffix.mem List.mem_cons_self))

theorem guarded_escape (quotes : Header.Quotes) (text : Text) :
    Guarded (Header.escape quotes.mark text ++ [quotes.mark]) := by
  have markOther : quotes.mark ≠ '-' ∧ quotes.mark ≠ '>' := by cases quotes <;> decide
  induction text with
  | nil => exact guarded_of_noDash (by simp [Header.escape, markOther.1])
  | cons c text ih =>
    by_cases escaped : c = quotes.mark ∨ c = '\\' ∨ c = '>'
    · have other : c ≠ '-' := by
        rcases escaped with rfl | rfl | rfl
        · exact markOther.1
        · decide
        · decide
      simp only [Header.escape, escaped, ↓reduceIte, List.cons_append, guarded_cons_iff]
      exact ⟨by simp, by simp [other], ih⟩
    · simp only [Header.escape, escaped, ↓reduceIte, List.cons_append, guarded_cons_iff]
      refine ⟨fun _ => ?_, ih⟩
      cases text with
      | nil => exact ⟨quotes.mark, rfl, markOther.2⟩
      | cons d text =>
        by_cases escaped' : d = quotes.mark ∨ d = '\\' ∨ d = '>'
        · simp [Header.escape, escaped']
        · simp_all [Header.escape]

theorem guarded_identifier (name : Header.Identifier) : Guarded name.text := by
  apply guarded_of_noDash
  rintro c member rfl
  rcases List.mem_cons.mp member with same | member
  · have begins := name.begins
    rw [← same] at begins
    exact absurd begins (by decide)
  · exact absurd (List.all_eq_true.mp name.continues _ member) (by decide)

theorem guarded_gap (gap : Header.Gap) : Guarded gap.text := by
  apply guarded_of_noDash
  rintro c member rfl
  exact absurd (List.all_eq_true.mp gap.blank _ member) (by decide)

theorem guarded_value (value : Header.PrintedValue) : Guarded value.text := by
  cases value with
  | quoted quotes s =>
    refine guarded_cons_iff.mpr ⟨fun dash => ?_, guarded_escape quotes s.toList⟩
    cases quotes <;> exact absurd dash (by decide)
  | integer n short =>
    apply guarded_of_noDash
    rintro c member rfl
    exact absurd (Header.isAsciiDigit_of_mem_toDigits member) (by decide)
  | bool b => cases b <;> exact guarded_of_noDash (by simp [Header.PrintedValue.text])
  | reference name => exact guarded_cons_iff.mpr ⟨by simp, guarded_identifier name⟩

theorem guarded_colon (colon : Header.Colon) : Guarded colon.text :=
  (guarded_gap colon.before).append (guarded_cons_iff.mpr ⟨by simp, guarded_gap colon.after⟩)

theorem guarded_name (name : Header.PrintedName) (colon : Header.Colon) : Guarded (name.text colon) :=
  (guarded_identifier name.namespaceName.toIdentifier).append
    ((guarded_colon colon).append (guarded_identifier name.action.toIdentifier))

theorem guarded_param (param : Header.PrintedParam) : Guarded param.text :=
  (guarded_gap param.gap.toGap).append ((guarded_identifier param.key.toIdentifier).append
    ((guarded_colon param.colon).append (guarded_value param.value)))

theorem guarded_params (params : List Header.PrintedParam) :
    Guarded (params.flatMap Header.PrintedParam.text) := by
  induction params with
  | nil => exact guarded_nil
  | cons param params ih => exact (guarded_param param).append ih

theorem guarded_header (header : MarkerHeader) : Guarded header.text := by
  cases header with
  | start name layout =>
    exact (guarded_gap layout.lead).append ((guarded_name name layout.colon).append
      ((guarded_params layout.params).append (guarded_gap layout.trail)))
  | stop name layout =>
    have named := (guarded_name name layout.colon).append (guarded_gap layout.trail)
    have slash : Guarded ('/' :: (layout.slash.text ++ (name.text layout.colon ++ layout.trail.text))) :=
      guarded_cons_iff.mpr ⟨by simp, (guarded_gap layout.slash).append named⟩
    exact (guarded_gap layout.lead).append slash

theorem Guarded.not_bracket {after : Text} (guarded : Guarded ('-' :: text)) :
    text ++ after ≠ '>' :: more := by
  intro begins
  obtain ⟨d, next, other⟩ := (guarded_cons_iff.mp guarded).1 rfl
  cases text with
  | nil => cases next
  | cons e text =>
    cases next
    exact other (List.cons.inj begins).1

theorem Guarded.tail_dash {after : Text} (guarded : Guarded ('-' :: text))
    (begins : text ++ after = '-' :: more) :
    ∃ rest, Guarded ('-' :: rest) ∧ rest ++ after = more := by
  obtain ⟨first, later⟩ := guarded_cons_iff.mp guarded
  obtain ⟨d, next, -⟩ := first rfl
  cases text with
  | nil => cases next
  | cons e text =>
    obtain ⟨rfl, tail⟩ := List.cons.inj begins
    exact ⟨text, later, tail⟩

/-- A guarded header ends where its closer is written. -/
theorem untilCloser_of_guarded {header closer : Text} (guarded : Guarded header)
    (closes : closer = ['-', '-', '>'] ∨ closer = ['-', '-', '-', '>']) (after : Text) :
    Chunk.untilCloser (header ++ (closer ++ after)) = some (header, closer, after) := by
  induction header with
  | nil => rcases closes with rfl | rfl <;> simp [Chunk.untilCloser]
  | cons c header ih =>
    rw [List.cons_append, Chunk.untilCloser_cons, ih (guarded_cons_iff.mp guarded).2]
    · rfl
    · rintro more rfl begins
      obtain ⟨rest, second, begins⟩ := guarded.tail_dash begins
      obtain ⟨rest, third, begins⟩ := second.tail_dash begins
      exact third.not_bracket begins
    · rintro more rfl begins
      obtain ⟨rest, second, begins⟩ := guarded.tail_dash begins
      exact second.not_bracket begins

end Guarded

/-- What a piece is read as. -/
inductive ReadAs : Piece → Chunk → Prop
  | text {content : Text} {loc : Position} : ReadAs (.text content) (.text content loc)
  | start {fence : Fence} {name : Header.PrintedName} {layout : Header.PrintedStart} {marker : Start} :
    marker.name = name.actionName →
    marker.params.map Header.Parameter.entry = layout.params.map Header.PrintedParam.entry →
    marker.raw = fence.around (layout.text name) →
    ReadAs (.marker fence (.start name layout)) (.start marker)
  | stop {fence : Fence} {name : Header.PrintedName} {layout : Header.PrintedStop} {marker : Stop} :
    marker.name = name.actionName → marker.raw = fence.around (layout.text name) →
    ReadAs (.marker fence (.stop name layout)) (.stop marker)

theorem readAs_ofMarker (file : String) (fence : Fence) (header : MarkerHeader) (loc : Position) :
    ∃ marker, Chunk.ofMarker .standard file header.text (fence.around header.text) loc = .ok marker ∧
      ReadAs (.marker fence header) marker := by
  cases header with
  | start name layout =>
    obtain ⟨tokens, tokenized, spelled⟩ := (layout.means name).tokenize loc
    obtain ⟨params, parsed, entries⟩ :=
      Header.parse_of_start Settings.standard.actionNamespace name layout.params spelled
    refine ⟨.start ⟨name.actionName, params, fence.around (layout.text name), loc⟩, ?_,
      .start rfl entries rfl⟩
    simp [Chunk.ofMarker, MarkerHeader.text, tokenized, parsed]
  | stop name layout =>
    obtain ⟨tokens, tokenized, spelled⟩ := (layout.means name).tokenize loc
    have parsed := Header.parse_of_stop Settings.standard.actionNamespace name spelled
    refine ⟨.stop ⟨name.actionName, fence.around (layout.text name), loc⟩, ?_, .stop rfl rfl⟩
    simp [Chunk.ofMarker, MarkerHeader.text, tokenized, parsed]

/-- What is said by a piece. -/
def Piece.bare : Piece → Chunk.Bare
  | .text content => .text content
  | .marker fence (.start name layout) =>
    .start name.actionName (layout.params.map Header.PrintedParam.entry) (fence.around (layout.text name))
  | .marker fence (.stop name layout) => .stop name.actionName (fence.around (layout.text name))

section Bare
variable {piece : Piece} {chunk : Chunk} {written more : List Piece} {chunks : List Chunk}

theorem readAs_iff : ReadAs piece chunk ↔ piece.bare = chunk.bare := by
  constructor
  · intro read
    cases read with
    | text => rfl
    | start named entries raw => simp [Piece.bare, Chunk.bare, named, entries, raw]
    | stop named raw => simp [Piece.bare, Chunk.bare, named, raw]
  · intro said
    cases piece with
    | text content =>
      cases chunk <;> cases said
      exact .text
    | marker fence header =>
      cases header with
      | start name layout =>
        cases chunk with
        | start marker =>
          obtain ⟨named, entries, raw⟩ := Chunk.Bare.start.inj said
          exact .start named.symm entries.symm raw.symm
        | text => cases said
        | stop => cases said
      | stop name layout =>
        cases chunk with
        | stop marker =>
          obtain ⟨named, raw⟩ := Chunk.Bare.stop.inj said
          exact .stop named.symm raw.symm
        | text => cases said
        | start => cases said

theorem forall_readAs_iff :
    List.Forall₂ ReadAs written chunks ↔ written.map Piece.bare = chunks.map Chunk.bare := by
  have pointwise : ReadAs = fun piece chunk => piece.bare = chunk.bare := by
    funext piece chunk
    exact propext readAs_iff
  rw [← List.forall₂_eq_eq_eq, List.forall₂_map_left_iff, List.forall₂_map_right_iff, pointwise]

theorem source_pieceBare (piece : Piece) : piece.bare.source = piece.source := by
  match piece with
  | .text content => rfl
  | .marker fence (.start name layout) => rfl
  | .marker fence (.stop name layout) => rfl

/-- A printed marker is read as such wherever it stands. -/
theorem marks_marker (fence : Fence) (header : MarkerHeader) :
    Chunk.Marks ⟨fence.opener, header.text, fence.closer, fence.lineBreak⟩
      (Piece.marker fence header).bare where
  opens := fence.opens
  closes := by
    have closes := untilCloser_of_guarded (guarded_header header) fence.closes fence.lineBreak
    simpa [Chunk.Pieces.tail] using closes
  breaks := fence.breaks
  raw := source_pieceBare (.marker fence header)
  reads := by
    intro file loc
    obtain ⟨marker, read, readAs⟩ := readAs_ofMarker file fence header loc
    exact ⟨marker, read, (readAs_iff.mp readAs).symm⟩

theorem fits_bare {left right : Piece} (fits : Fits left right) : Chunk.Fits left.bare right.bare := by
  cases right with
  | marker fence header => exact Chunk.fits_marker (marks_marker fence header).notText
  | text content =>
    cases left with
    | text => exact fits.elim
    | marker fence header => exact (marks_marker fence header).fits fits

theorem Readable.legible (readable : Readable written) : Chunk.Legible (written.map Piece.bare) := by
  constructor
  · intro bare member
    obtain ⟨piece, present, rfl⟩ := List.mem_map.mp member
    cases piece with
    | text content => exact Chunk.sound_text_iff.mpr (readable.plain content present)
    | marker fence header =>
      have marks := marks_marker fence header
      exact (Chunk.sound_marker_iff marks.notText).mpr ⟨_, marks⟩
  · rw [List.isChain_map]
    exact readable.fits.imp fun _ _ fits => fits_bare fits

/-- The scan of what is written finds the pieces it is written from. -/
theorem scan_pieces (file : String) (written : List Piece) (readable : Readable written)
    (loc : Position) :
    ∃ chunks, Chunk.scanFrom .standard file loc (written.flatMap Piece.source) = .ok chunks ∧
      List.Forall₂ ReadAs written chunks := by
  obtain ⟨chunks, scanned, said⟩ := Chunk.scan_legible file _ readable.legible loc
  rw [List.flatMap_map] at scanned
  simp only [source_pieceBare] at scanned
  exact ⟨chunks, scanned, forall_readAs_iff.mpr said.symm⟩

end Bare

theorem baresAll_block (forest : List (Tree PrintedBlock)) :
    Node.baresAll (Tree.relabelAll PrintedBlock.block forest) = (piecesAll forest).map Piece.bare := by
  induction forest using Tree.forest_induction with
  | nil => rfl
  | text content more ih => simp [piecesAll, pieces, Piece.bare, ih]
  | block block body more inside after =>
    have entries : block.block.start.params.map Header.Parameter.entry =
        block.start.params.map Header.PrintedParam.entry := by
      simp [PrintedBlock.block, Header.Parameter.entry]
    have starts : Node.bareStart block.block =
        (Piece.marker block.startFence (.start block.name block.start)).bare := by
      rw [Node.bareStart, entries]
      rfl
    have stops : Node.bareStop block.block =
        (Piece.marker block.stopFence (.stop block.name block.stop)).bare := rfl
    simp [piecesAll, pieces, inside, after, starts, stops]

theorem reading_block : Block.reading ∘ PrintedBlock.block = PrintedBlock.reading := by
  funext block
  simp [Block.reading, PrintedBlock.block, PrintedBlock.reading, Header.Parameter.entry]

/-- The chunks of a forest spell it, whatever pieces follow those of the forest. -/
theorem spells_of_readAs (forest : List (Tree PrintedBlock)) {more : List Piece} {chunks : List Chunk}
    (read : List.Forall₂ ReadAs (piecesAll forest ++ more) chunks) :
    ∃ inner rest nodes, chunks = inner ++ rest ∧ Bracket.Spells inner nodes ∧
      Tree.relabelAll Block.reading nodes = Tree.relabelAll PrintedBlock.reading forest ∧
      List.Forall₂ ReadAs more rest := by
  have said := (forall_readAs_iff.mp read).symm
  rw [List.map_append, ← baresAll_block] at said
  obtain ⟨inner, rest, nodes, split, spells, same, after⟩ := Bracket.spells_of_bares _ said
  rw [Tree.relabelAll_relabelAll, reading_block] at same
  exact ⟨inner, rest, nodes, split, spells, same, forall_readAs_iff.mpr after.symm⟩

end Printing

namespace Document
open Printing

/-- A document that is parsed from the text of a forest holds the same texts and
blocks, in the same order and inside one another in the same way. -/
theorem parse_print (limit : Nat) (file : Option String) (forest : List (Tree PrintedBlock))
    (printable : Printable limit forest) :
    ∃ document, parse limit .standard file (print forest) = .ok document ∧
      document.file = nameIn .standard file ∧
      Tree.relabelAll Block.reading document.nodes = Tree.relabelAll PrintedBlock.reading forest := by
  obtain ⟨chunks, scanned, read⟩ :=
    scan_pieces (nameIn .standard file) (piecesAll forest) printable.readable .start
  rw [← List.append_nil (piecesAll forest)] at read
  obtain ⟨inner, rest, nodes, rfl, spells, same, nothing⟩ := spells_of_readAs forest read
  cases nothing
  rw [List.append_nil] at scanned
  have high : Tree.heightAll nodes = Tree.heightAll forest := by
    rw [← Tree.heightAll_relabelAll Block.reading, same, Tree.heightAll_relabelAll]
  have shallow : Bracket.peak (nameIn .standard file) .initial inner ≤ limit := by
    have bound := Bracket.peak_of_spells (nameIn .standard file) spells .initial []
    rw [List.append_nil, high] at bound
    have shallow := printable.shallow
    simp only [Bracket.peak, Bracket.State.initial, Bracket.State.add, List.length_nil] at bound ⊢
    omega
  have built := Bracket.ofChunks_of_shallow shallow
  rw [Bracket.read_eq_ok_iff.mpr spells] at built
  refine ⟨⟨nameIn .standard file, nodes⟩, ?_, rfl, same⟩
  simp only [parse, Chunk.scan, print, scanned, built]

/-- A block whose start is on two lines and holds a closer in a text. -/
def arrowBlock : PrintedBlock where
  name := ⟨⟨⟨'d', ['o', 'c'], rfl, rfl⟩, by decide, by decide⟩,
    ⟨⟨'t', ['r', 'u', 'e', '2'], rfl, rfl⟩, by decide, by decide⟩⟩
  start := ⟨⟨[], rfl⟩, ⟨⟨[], rfl⟩, ⟨[' '], rfl⟩⟩,
    [⟨⟨⟨[',', '\n'], rfl⟩, by simp⟩, ⟨⟨'k', [], rfl, rfl⟩, by decide, by decide⟩,
      ⟨⟨[], rfl⟩, ⟨[], rfl⟩⟩, .quoted .single "'-->"⟩], ⟨[' '], rfl⟩⟩
  startFence := ⟨"<!-- rdmx ".toList, "-->".toList, [], by decide, Or.inl rfl, Or.inl rfl⟩
  stop := ⟨⟨[], rfl⟩, ⟨[], rfl⟩, ⟨⟨[], rfl⟩, ⟨[], rfl⟩⟩, ⟨[' '], rfl⟩⟩
  stopFence := ⟨"<!--- rdmx ".toList, "--->".toList, ['\n'], by decide, Or.inr rfl,
    Or.inr (Or.inl rfl)⟩

def arrowForest : List (Tree PrintedBlock) := [.block arrowBlock [.text "a<!--b".toList]]

theorem parse_print_arrow : Printable 1 arrowForest ∧
    print arrowForest =
      "<!-- rdmx doc: true2,\nk:'\\'--\\>' -->a<!--b<!--- rdmx /doc:true2 --->\n".toList ∧
    ∃ document, parse 1 .standard none (print arrowForest) = .ok document ∧
      document.file = nameIn .standard none ∧
      Tree.relabelAll Block.reading document.nodes =
        Tree.relabelAll PrintedBlock.reading arrowForest := by
  have printable : Printable 1 arrowForest := by
    refine ⟨⟨?_, ?_⟩, by decide⟩
    · intro content member
      simp only [arrowForest, piecesAll, pieces, List.append_nil, List.cons_append, List.nil_append,
        List.mem_cons, Piece.text.injEq, reduceCtorEq, List.not_mem_nil, or_false, false_or] at member
      rw [member]
      exact ⟨by decide, by decide +kernel⟩
    · have fits : Fits (.marker arrowBlock.startFence (.start arrowBlock.name arrowBlock.start))
          (.text "a<!--b".toList) := fun _ => by decide
      exact .cons_cons fits (.cons_cons trivial (.singleton _))
  exact ⟨printable, by decide +kernel, parse_print 1 none arrowForest printable⟩

end Document
end Regen
