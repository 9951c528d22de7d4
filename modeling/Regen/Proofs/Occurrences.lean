import Mathlib.Data.List.Basic
import Regen.Proofs.ChunkTiling
import Regen.Proofs.Forests
import Regen.Proofs.TruePositions

/-! Where blocks stand. Every block of a document, however deep, is written at one
place of its text: after the text before its start marker, and before the text after
its stop marker. The chunks have the two markers at the same place, with what the
block holds between them. In a document that is parsed a block has one place only, and
the position of its marker tells on which line what it holds begins. -/
namespace Regen

/-- A block with what it holds, the text before it and the text after it. -/
@[ext]
structure Occurrence where
  before : Text
  block : Block
  body : List Node
  after : Text

namespace Occurrence

/-- The same block where some text stands before all else. -/
def past (text : Text) (place : Occurrence) : Occurrence :=
  { place with before := text ++ place.before }

/-- The same block inside another one, after which some text stands. -/
def within (outer : Block) (text : Text) (place : Occurrence) : Occurrence :=
  { place with before := outer.start.raw ++ place.before, after := place.after ++ outer.footer ++ text }

@[simp] theorem length_before_past (text : Text) (place : Occurrence) :
    (place.past text).before.length = text.length + place.before.length := List.length_append

@[simp] theorem length_before_within (outer : Block) (text : Text) (place : Occurrence) :
    (place.within outer text).before.length = outer.start.raw.length + place.before.length :=
  List.length_append

/-- The text of the block. -/
def source (place : Occurrence) : Text :=
  place.block.start.raw ++ Node.sourceAll place.body ++ place.block.footer

/-- A block stands at a place of a document: before the other nodes, after a node, or
inside the first one. -/
inductive In : Occurrence → List Node → Prop
  | here {block : Block} {body more : List Node} :
    In ⟨[], block, body, Node.sourceAll more⟩ (.block block body :: more)
  | past {node : Node} {more : List Node} {place : Occurrence} :
    In place more → In (place.past node.source) (node :: more)
  | within {block : Block} {body more : List Node} {place : Occurrence} :
    In place body → In (place.within block (Node.sourceAll more)) (.block block body :: more)

section In
variable {place : Occurrence} {nodes more body level before after : List Node} {content : Text} {block : Block}

theorem in_text_iff : place.In (.text content :: more) ↔
    ∃ later : Occurrence, later.In more ∧ place = later.past content := by
  constructor
  · intro stands
    cases stands with
    | past later => exact ⟨_, later, rfl⟩
  · rintro ⟨later, stands, rfl⟩
    exact @In.past (.text content) _ _ stands

theorem in_block_iff : place.In (.block block body :: more) ↔
    place = ⟨[], block, body, Node.sourceAll more⟩ ∨
    (∃ inner : Occurrence, inner.In body ∧ place = inner.within block (Node.sourceAll more)) ∨
    ∃ later : Occurrence, later.In more ∧ place = later.past (Node.source (.block block body)) := by
  constructor
  · intro stands
    cases stands with
    | here => exact .inl rfl
    | within inner => exact .inr (.inl ⟨_, inner, rfl⟩)
    | past later => exact .inr (.inr ⟨_, later, rfl⟩)
  · rintro (rfl | ⟨inner, stands, rfl⟩ | ⟨later, stands, rfl⟩)
    · exact .here
    · exact .within stands
    · exact .past stands

/-- A block stands after the nodes before it. -/
theorem In.prepend (stands : place.In more) :
    ∃ before, Occurrence.In ⟨before, place.block, place.body, place.after⟩ (nodes ++ more) := by
  induction nodes with
  | nil => exact ⟨place.before, stands⟩
  | cons node nodes ih =>
    obtain ⟨before, stands⟩ := ih
    exact ⟨node.source ++ before, .past stands⟩

/-- Every block among the nodes has its place. -/
theorem in_of_mem (member : .block block body ∈ nodes) :
    ∃ place : Occurrence, place.In nodes ∧ place.block = block ∧ place.body = body := by
  obtain ⟨before, more, rfl⟩ := List.append_of_mem member
  have here : Occurrence.In ⟨[], block, body, Node.sourceAll more⟩ (.block block body :: more) := .here
  obtain ⟨text, stands⟩ := @In.prepend _ before _ here
  exact ⟨_, stands, rfl, rfl⟩

/-- What stands inside a block among the nodes has its place there, too. -/
theorem In.outside (stands : place.In body) (member : .block block body ∈ nodes) :
    ∃ wider : Occurrence, wider.In nodes ∧ wider.block = place.block ∧ wider.body = place.body := by
  obtain ⟨before, more, rfl⟩ := List.append_of_mem member
  have inside : (place.within block (Node.sourceAll more)).In (.block block body :: more) := .within stands
  obtain ⟨text, within⟩ := @In.prepend _ before _ inside
  exact ⟨_, within, rfl, rfl⟩

/-- The text of a document around a block is the text before it and after it. -/
theorem In.sourceAll (stands : place.In nodes) :
    Node.sourceAll nodes = place.before ++ place.source ++ place.after := by
  induction stands with
  | here => simp [Node.sourceAll, Node.source, source]
  | past _ ih => simp [Node.sourceAll, ih, Occurrence.past, source]
  | within _ ih => simp [Node.sourceAll, Node.source, ih, Occurrence.within, source]

/-- Where start markers are not empty, the text before a block tells its place: inside a
block there is more text before, and after it more again. -/
theorem In.unique {other : Occurrence}
    (filled : ∀ place : Occurrence, place.In nodes → 0 < place.block.start.raw.length)
    (stands : place.In nodes) (stands' : other.In nodes)
    (same : place.before.length = other.before.length) : place = other := by
  have ends {place : Occurrence} {body : List Node} (stands : place.In body) :
      place.before.length + place.block.start.raw.length ≤ (Node.sourceAll body).length := by
    rw [stands.sourceAll]
    simp only [source, List.length_append]
    omega
  induction stands generalizing other with
  | @here block body more =>
    have first : 0 < block.start.raw.length := filled _ .here
    rcases in_block_iff.mp stands' with rfl | ⟨inner, -, rfl⟩ | ⟨later, -, rfl⟩
    · rfl
    · simp only [List.length_nil, length_before_within] at same
      omega
    · simp only [List.length_nil, length_before_past, Node.source, List.length_append] at same
      omega
  | @past node more place stands ih =>
    have filled' (place : Occurrence) (stands : place.In more) :=
      filled (place.past node.source) (.past stands)
    cases node with
    | text content =>
      obtain ⟨later, located, rfl⟩ := in_text_iff.mp stands'
      rw [ih filled' located (by simpa [Node.source] using same)]
      rfl
    | block block body =>
      have first : 0 < block.start.raw.length := filled _ .here
      rcases in_block_iff.mp stands' with rfl | ⟨inner, located, rfl⟩ | ⟨later, located, rfl⟩
      · simp only [length_before_past, Node.source, List.length_append, List.length_nil] at same
        omega
      · have filling : 0 < inner.block.start.raw.length := filled (inner.within block _) (.within located)
        have inside := ends located
        simp only [length_before_past, length_before_within, Node.source, List.length_append] at same
        omega
      · rw [ih filled' located (by simpa using same)]
  | @within block body more place stands ih =>
    have first : 0 < block.start.raw.length := filled _ .here
    have filled' (place : Occurrence) (stands : place.In body) :=
      filled (place.within block (Node.sourceAll more)) (.within stands)
    rcases in_block_iff.mp stands' with rfl | ⟨inner, located, rfl⟩ | ⟨later, located, rfl⟩
    · simp only [length_before_within, List.length_nil] at same
      omega
    · rw [ih filled' located (by simpa using same)]
    · have filling : 0 < place.block.start.raw.length := filled (place.within block _) (.within stands)
      have inside := ends stands
      simp only [length_before_past, length_before_within, Node.source, List.length_append] at same
      omega

end In

/-- Chunks have the markers of a block where the block stands, and between them what
it holds. -/
structure Marked (place : Occurrence) (chunks first inner : List Chunk) (stop : Stop) (last : List Chunk) :
    Prop where
  whole : chunks = first ++ .start place.block.start :: (inner ++ .stop stop :: last)
  named : stop.name = place.block.start.name
  footer : stop.raw = place.block.footer
  before : first.flatMap Chunk.source = place.before
  inside : Bracket.Spells inner place.body
  after : last.flatMap Chunk.source = place.after

theorem In.marked {place : Occurrence} {nodes : List Node} {chunks : List Chunk} (stands : place.In nodes)
    (spells : Bracket.Spells chunks nodes) : ∃ first inner stop last, place.Marked chunks first inner stop last := by
  induction stands generalizing chunks with
  | here =>
    cases spells with
    | @block start stop inner last body nodes named inside later =>
      exact ⟨[], inner, stop, last, rfl, named, rfl, rfl, inside, later.source.symm⟩
  | past _ ih =>
    cases spells with
    | @text content loc more nodes later =>
      obtain ⟨first, inner, stop, last, rfl, named, footer, before, inside, after⟩ := ih later
      refine ⟨.text content loc :: first, inner, stop, last, rfl, named, footer, ?_, inside, after⟩
      rw [List.flatMap_cons, before]
      rfl
    | @block start stop inner' more body nodes named' inside' later =>
      obtain ⟨first, inner, stop', last, rfl, named, footer, before, inside, after⟩ := ih later
      refine ⟨.start start :: (inner' ++ .stop stop :: first), inner, stop', last, by simp [Occurrence.past], named,
        footer, ?_, inside, after⟩
      simp [Occurrence.past, Node.source, inside'.source, before, Chunk.source]
  | within _ ih =>
    cases spells with
    | @block start stop inner' more body nodes named' inside' later =>
      obtain ⟨first, inner, stop', last, rfl, named, footer, before, inside, after⟩ := ih inside'
      refine ⟨.start start :: first, inner, stop', last ++ .stop stop :: more, by simp [Occurrence.within], named,
        footer, ?_, inside, ?_⟩
      · simp [Occurrence.within, before, Chunk.source]
      · simp [Occurrence.within, after, later.source, Chunk.source]

/-- Every start marker is that of a block, and stands where the block does. -/
theorem in_of_start {start : Start} {chunks first last : List Chunk} {nodes : List Node}
    (spells : Bracket.Spells chunks nodes) (whole : chunks = first ++ .start start :: last) :
    ∃ place : Occurrence, place.In nodes ∧ place.block.start = start ∧
      place.before = first.flatMap Chunk.source := by
  induction spells generalizing first last with
  | nil => simp at whole
  | @text content loc more nodes _ ih =>
    cases first with
    | nil => cases whole
    | cons chunk first =>
      obtain ⟨rfl, rest⟩ := List.cons.inj whole
      obtain ⟨place, stands, rfl, before⟩ := ih rest
      exact ⟨_, @In.past (.text content) _ _ stands, rfl, congrArg (content ++ ·) before⟩
  | @block outer stop inner more body nodes _ inside _ within after =>
    cases first with
    | nil =>
      cases whole
      exact ⟨_, .here, rfl, rfl⟩
    | cons chunk first =>
      obtain ⟨rfl, rest⟩ := List.cons.inj whole
      rcases List.append_eq_append_iff.mp rest with ⟨between, rfl, split⟩ | ⟨between, rfl, split⟩
      · cases between with
        | nil => cases split
        | cons chunk between =>
          obtain ⟨rfl, later⟩ := List.cons.inj split
          obtain ⟨place, stands, rfl, before⟩ := after later
          refine ⟨_, @In.past (.block ⟨outer, stop.raw⟩ body) _ _ stands, rfl, ?_⟩
          simp [past, Node.source, inside.source, before, Chunk.source]
      · cases between with
        | nil => cases split
        | cons chunk between =>
          obtain ⟨rfl, later⟩ := List.cons.inj split
          obtain ⟨place, stands, rfl, before⟩ := within rfl
          refine ⟨_, @In.within ⟨outer, stop.raw⟩ _ _ _ stands, rfl, ?_⟩
          simp [Occurrence.within, before, Chunk.source]

end Occurrence

namespace Document
open Position

section Parse
variable {limit : Nat} {settings : Settings} {file : Option String} {source : Text} {document : Document}
  {place other : Occurrence}

/-- No start marker of a parsed document is empty. -/
theorem marker_ne_nil (parsed : parse limit settings file source = .ok document)
    (stands : place.In document.nodes) : place.block.start.raw ≠ [] := by
  obtain ⟨chunks, scanned, spells⟩ := spells_of_parse parsed
  obtain ⟨first, inner, stop, last, marked⟩ := stands.marked spells
  have tiles := (Chunk.scanFrom_scans settings _ .start source).tiles chunks scanned
  obtain ⟨opener, _, _, _, opens, raw, -⟩ := tiles.stands first _ _ marked.whole
  have begins := Chunk.head_opener opens
  rw [raw]
  rintro empty
  rw [(List.append_eq_nil_iff.mp empty).1] at begins
  cases begins

/-- No block of a parsed document stands at two places, as markers have positions of
their own. -/
theorem place_unique (parsed : parse limit settings file source = .ok document)
    (stands : place.In document.nodes) (stands' : other.In document.nodes)
    (same : other.block = place.block) : other = place := by
  obtain ⟨chunks, scanned, spells⟩ := spells_of_parse parsed
  obtain ⟨first, inner, stop, last, marked⟩ := stands.marked spells
  obtain ⟨first', inner', stop', last', marked'⟩ := stands'.marked spells
  have ordered := ((Chunk.scanFrom_scans settings _ .start source).increasing chunks scanned).2
  rw [marked.whole, List.pairwise_append, List.pairwise_cons] at ordered
  obtain ⟨-, ⟨later, -⟩, earlier⟩ := ordered
  have once : Chunk.start place.block.start ∉ first := fun again =>
    Before.irrefl _ (earlier _ again _ List.mem_cons_self)
  have once' : Chunk.start place.block.start ∉ inner ++ .stop stop :: last := fun again =>
    Before.irrefl _ (later _ again)
  have whole := marked'.whole
  rw [same, marked.whole] at whole
  obtain ⟨rfl, -, -⟩ := (List.append_cons_inj_of_notMem once once').mp whole
  have filled (place : Occurrence) (stands : place.In document.nodes) : 0 < place.block.start.raw.length :=
    List.length_pos_iff.mpr (marker_ne_nil parsed stands)
  exact (stands.unique filled stands' (by rw [← marked.before, ← marked'.before])).symm

/-- The line after a start marker, found by the line feeds in it, is the line of the
document where its block begins. -/
theorem line_of_marker (level : '\n' ∉ settings.markerKeyword.toList)
    (parsed : parse limit settings file source = .ok document) (stands : place.In document.nodes) :
    place.block.start.loc.line + Text.lineFeeds place.block.start.raw =
      (start.advance (place.before ++ place.block.start.raw)).line := by
  obtain ⟨chunks, scanned, spells⟩ := spells_of_parse parsed
  obtain ⟨first, inner, stop, last, marked⟩ := stands.marked spells
  have scans := Chunk.scanFrom_scans settings (nameIn settings file) .start source
  obtain ⟨opener, header, ⟨opens, closer, lineBreak, raw, -⟩, loc, -⟩ :=
    scans.located level (.start source) chunks scanned first _ _ marked.whole
  have begins : ofOffset source (place.before.length + opener.length) =
      start.advance (place.before ++ opener) := by
    rw [ofOffset, ← source_of_parse parsed, Document.source, stands.sourceAll, Occurrence.source, raw]
    simp only [← List.append_assoc, ← List.length_append]
    simp only [List.append_assoc (place.before ++ opener), List.take_left]
  have plain : Text.lineFeeds opener = 0 := List.count_eq_zero.mpr (Chunk.level_opener level opens)
  rw [loc, List.length_nil, Nat.zero_add, marked.before, begins, line_advance, line_advance]
  simp [Text.lineFeeds] at plain ⊢
  omega

end Parse
end Document
end Regen
