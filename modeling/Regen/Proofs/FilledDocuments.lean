import Regen.Proofs.Idempotence
import Regen.Proofs.ResolutionOrder

/-! Documents filled with one content. Some blocks hand on their bodies, and the
outermost of the others are filled with the content. Such a document is read back but
for one thing: a header without a line break of its own takes the one that the content
begins with. It takes it once. -/
namespace Regen

/-- The line break of a content that the header of a block takes: none if it has its
own, and the one the content begins with if not. -/
def Block.lead (content : Text) (block : Block) : Text :=
  if block.start.raw.getLast? = some '>' then Chunk.newline content else []

/-- A block whose header has taken the line break of a content. -/
def Block.leading (content : Text) (block : Block) : Block :=
  { block with start := { block.start with raw := block.start.raw ++ block.lead content } }

section Lead
variable {content : Text} {block block' : Block}

theorem Block.lead_form (content : Text) (block : Block) :
    block.lead content = [] ∨ block.lead content = ['\n'] ∨ block.lead content = ['\r', '\n'] := by
  unfold lead
  split
  · exact (Chunk.owns_newline content).form
  · exact .inl rfl

/-- The content is the line break taken and what is left of it. -/
theorem Block.lead_restores (content : Text) (block : Block) :
    block.lead content ++ content.drop (block.lead content).length = content := by
  unfold lead
  split
  · exact Chunk.newline_restores content
  · rfl

/-- A header takes a line break once. -/
theorem Block.lead_leading (content : Text) (block : Block) :
    (block.leading content).lead content = [] := by
  have ends : (block.start.raw ++ block.lead content).getLast? = some '>' → Chunk.newline content = [] := by
    intro last
    by_cases bare : block.start.raw.getLast? = some '>'
    · rw [lead, if_pos bare] at last
      rcases (Chunk.owns_newline content).form with none | feed | pair
      · exact none
      · simp [feed] at last
      · simp [pair] at last
    · rw [lead, if_neg bare, List.append_nil] at last
      exact absurd last bare
  unfold lead at *
  split
  · exact ends ‹_›
  · rfl

theorem Block.length_lead (content : Text) (block : Block) : (block.lead content).length =
    (if block.start.raw.getLast? = some '>' then 1 else 0) * (Chunk.newline content).length := by
  unfold lead
  split <;> simp

theorem Block.lead_of_reading (same : block'.reading = block.reading) :
    block'.lead content = block.lead content := by
  rw [lead, lead, show block'.start.raw = block.start.raw from congrArg Reading.header same]

end Lead

namespace Node

mutual

/-- A node with each outermost block that does not hand on its body filled with a content. -/
def refill (opens : Header.ActionName → Bool) (content : Text) : Node → Node
  | .text run => .text run
  | .block block body =>
    .block block (if opens block.start.name then refillAll opens content body else Tree.ofText content)

/-- Nodes with such blocks filled with a content. -/
def refillAll (opens : Header.ActionName → Bool) (content : Text) : List Node → List Node
  | [] => []
  | node :: more => refill opens content node :: refillAll opens content more

end

mutual

/-- What a node filled with a content is read as: a header without a line break takes
the one that the content begins with. -/
def reread (opens : Header.ActionName → Bool) (content : Text) : Node → Node
  | .text run => .text run
  | .block block body =>
    if opens block.start.name then .block block (rereadAll opens content body)
    else .block (block.leading content) (Tree.ofText (content.drop (block.lead content).length))

/-- What nodes filled with a content are read as. -/
def rereadAll (opens : Header.ActionName → Bool) (content : Text) : List Node → List Node
  | [] => []
  | node :: more => reread opens content node :: rereadAll opens content more

end

mutual

/-- The number of headers in a node that take a line break of a content. -/
def bareHeadersIn (opens : Header.ActionName → Bool) : Node → Nat
  | .text _ => 0
  | .block block body =>
    if opens block.start.name then bareHeaders opens body
    else if block.start.raw.getLast? = some '>' then 1 else 0

/-- The number of headers that take a line break of a content: those without one of
their own, of the outermost blocks that do not hand on their bodies. -/
def bareHeaders (opens : Header.ActionName → Bool) : List Node → Nat
  | [] => 0
  | node :: more => bareHeadersIn opens node + bareHeaders opens more

end

section Refill
variable {opens : Header.ActionName → Bool} {content run : Text} {block : Block}
  {body more nodes nodes' : List Node}

@[simp] theorem refillAll_nil : refillAll opens content [] = [] := rfl

@[simp] theorem refillAll_text :
    refillAll opens content (.text run :: more) = .text run :: refillAll opens content more := rfl

theorem refillAll_opened (opened : opens block.start.name = true) :
    refillAll opens content (.block block body :: more) =
      .block block (refillAll opens content body) :: refillAll opens content more := by
  rw [refillAll, refill, if_pos opened]

theorem refillAll_filled (filled : ¬opens block.start.name = true) :
    refillAll opens content (.block block body :: more) =
      .block block (Tree.ofText content) :: refillAll opens content more := by
  rw [refillAll, refill, if_neg filled]

@[simp] theorem rereadAll_nil : rereadAll opens content [] = [] := rfl

@[simp] theorem rereadAll_text :
    rereadAll opens content (.text run :: more) = .text run :: rereadAll opens content more := rfl

theorem rereadAll_opened (opened : opens block.start.name = true) :
    rereadAll opens content (.block block body :: more) =
      .block block (rereadAll opens content body) :: rereadAll opens content more := by
  rw [rereadAll, reread, if_pos opened]

theorem rereadAll_filled (filled : ¬opens block.start.name = true) :
    rereadAll opens content (.block block body :: more) =
      .block (block.leading content) (Tree.ofText (content.drop (block.lead content).length)) ::
        rereadAll opens content more := by
  rw [rereadAll, reread, if_neg filled]

@[simp] theorem bareHeaders_text : bareHeaders opens (.text run :: more) = bareHeaders opens more :=
  Nat.zero_add _

theorem bareHeaders_opened (opened : opens block.start.name = true) :
    bareHeaders opens (.block block body :: more) = bareHeaders opens body + bareHeaders opens more := by
  rw [bareHeaders, bareHeadersIn, if_pos opened]

theorem bareHeaders_filled (filled : ¬opens block.start.name = true) :
    bareHeaders opens (.block block body :: more) =
      (if block.start.raw.getLast? = some '>' then 1 else 0) + bareHeaders opens more := by
  rw [bareHeaders, bareHeadersIn, if_neg filled]

theorem sourceAll_block : sourceAll (.block block body :: more) =
    block.start.raw ++ sourceAll body ++ block.footer ++ sourceAll more := rfl

@[simp] theorem sourceAll_ofText : sourceAll (Tree.ofText content) = content := by
  cases content <;> simp [Tree.ofText, sourceAll, source]

/-- Reading does not change the text. -/
theorem sourceAll_rereadAll (opens : Header.ActionName → Bool) (content : Text) (nodes : List Node) :
    sourceAll (rereadAll opens content nodes) = sourceAll (refillAll opens content nodes) := by
  induction nodes using Tree.forest_induction with
  | nil => rfl
  | text run more ih => simp only [rereadAll_text, refillAll_text, sourceAll, ih]
  | block block body more inside after =>
    by_cases opened : opens block.start.name = true
    · simp only [rereadAll_opened opened, refillAll_opened opened, sourceAll_block, inside, after]
    · have whole : block.start.raw ++ block.lead content ++ content.drop (block.lead content).length =
          block.start.raw ++ content := by
        rw [List.append_assoc, block.lead_restores]
      simp only [rereadAll_filled opened, refillAll_filled opened, sourceAll_block, sourceAll_ofText,
        Block.leading, whole, after]

/-- What has been read and filled again is read as itself. -/
theorem refillAll_rereadAll_twice (opens : Header.ActionName → Bool) (content : Text) (nodes : List Node) :
    refillAll opens content (rereadAll opens content (rereadAll opens content nodes)) =
      refillAll opens content (rereadAll opens content nodes) := by
  induction nodes using Tree.forest_induction with
  | nil => rfl
  | text run more ih => simp only [rereadAll_text, refillAll_text, ih]
  | block block body more inside after =>
    by_cases opened : opens block.start.name = true
    · simp only [rereadAll_opened opened, refillAll_opened opened, inside, after]
    · have opened' : ¬opens (block.leading content).start.name = true := opened
      have opened'' : ¬opens ((block.leading content).leading content).start.name = true := opened
      have once : (block.leading content).leading content = block.leading content := by
        rw [Block.leading, block.lead_leading, List.append_nil]
      rw [rereadAll_filled opened, rereadAll_filled opened', refillAll_filled opened'',
        refillAll_filled opened', once, after]

/-- Reading depends on what is read of the nodes. -/
theorem rereadAll_of_reading
    (same : Tree.relabelAll Block.reading nodes' = Tree.relabelAll Block.reading nodes) :
    Tree.relabelAll Block.reading (rereadAll opens content nodes') =
      Tree.relabelAll Block.reading (rereadAll opens content nodes) := by
  induction nodes using Tree.forest_induction generalizing nodes' with
  | nil => rw [Tree.eq_nil_of_relabelAll same]
  | text run more ih =>
    obtain ⟨rest, rfl, later⟩ := Tree.eq_text_of_relabelAll same
    simp only [rereadAll_text, Tree.relabelAll_text, ih later]
  | block block body more inside after =>
    obtain ⟨block', inner, rest, rfl, alike, within, later⟩ := Tree.eq_block_of_relabelAll same
    have named : block'.start.name = block.start.name := congrArg Reading.name alike
    by_cases opened : opens block.start.name = true
    · rw [rereadAll_opened opened, rereadAll_opened (named ▸ opened), Tree.relabelAll_block,
        Tree.relabelAll_block, inside within, after later, alike]
    · have leads : (block'.leading content).reading = (block.leading content).reading := by
        obtain ⟨-, entries, header, footer⟩ := Reading.mk.inj alike
        simp [Block.reading, Block.leading, Block.lead_of_reading alike, named, entries, header, footer]
      rw [rereadAll_filled opened, rereadAll_filled (named ▸ opened), Tree.relabelAll_block,
        Tree.relabelAll_block, leads, Block.lead_of_reading alike, after later]

theorem refillAll_of_reading
    (same : Tree.relabelAll Block.reading nodes' = Tree.relabelAll Block.reading nodes) :
    Tree.relabelAll Block.reading (refillAll opens content nodes') =
      Tree.relabelAll Block.reading (refillAll opens content nodes) := by
  induction nodes using Tree.forest_induction generalizing nodes' with
  | nil => rw [Tree.eq_nil_of_relabelAll same]
  | text run more ih =>
    obtain ⟨rest, rfl, later⟩ := Tree.eq_text_of_relabelAll same
    simp only [refillAll_text, Tree.relabelAll_text, ih later]
  | block block body more inside after =>
    obtain ⟨block', inner, rest, rfl, alike, within, later⟩ := Tree.eq_block_of_relabelAll same
    have named : block'.start.name = block.start.name := congrArg Reading.name alike
    by_cases opened : opens block.start.name = true
    · rw [refillAll_opened opened, refillAll_opened (named ▸ opened), Tree.relabelAll_block,
        Tree.relabelAll_block, inside within, after later, alike]
    · rw [refillAll_filled opened, refillAll_filled (named ▸ opened), Tree.relabelAll_block,
        Tree.relabelAll_block, alike, after later]

theorem heightAll_rereadAll (opens : Header.ActionName → Bool) (content : Text) (nodes : List Node) :
    Tree.heightAll (rereadAll opens content nodes) = Tree.heightAll (refillAll opens content nodes) := by
  induction nodes using Tree.forest_induction with
  | nil => rfl
  | text run more ih => simp only [rereadAll_text, refillAll_text, Tree.heightAll_text, ih]
  | block block body more inside after =>
    by_cases opened : opens block.start.name = true
    · simp only [rereadAll_opened opened, refillAll_opened opened, Tree.heightAll_block, inside, after]
    · simp only [rereadAll_filled opened, refillAll_filled opened, Tree.heightAll_block,
        Tree.heightAll_ofText, after]

/-- The text grows by one line break for each header that takes one. -/
theorem length_refillAll_rereadAll (opens : Header.ActionName → Bool) (content : Text)
    (nodes : List Node) :
    (sourceAll (refillAll opens content (rereadAll opens content nodes))).length =
      (sourceAll (refillAll opens content nodes)).length +
        bareHeaders opens nodes * (Chunk.newline content).length := by
  induction nodes using Tree.forest_induction with
  | nil => simp [bareHeaders]
  | text run more ih =>
    simp only [rereadAll_text, refillAll_text, sourceAll, source, List.length_append,
      bareHeaders_text, ih]
    omega
  | block block body more inside after =>
    by_cases opened : opens block.start.name = true
    · simp only [rereadAll_opened opened, refillAll_opened opened, sourceAll_block, List.length_append,
        inside, after, bareHeaders_opened opened, Nat.add_mul]
      omega
    · have opened' : ¬opens (block.leading content).start.name = true := opened
      rw [rereadAll_filled opened, refillAll_filled opened', refillAll_filled opened,
        bareHeaders_filled opened, Nat.add_mul, ← block.length_lead]
      simp only [sourceAll_block, sourceAll_ofText, List.length_append, after, Block.leading]
      omega

/-- Where no header takes a line break the text stays as it is. -/
theorem refillAll_rereadAll_of_settled (settled : Chunk.newline content = [] ∨ bareHeaders opens nodes = 0) :
    refillAll opens content (rereadAll opens content nodes) = refillAll opens content nodes := by
  induction nodes using Tree.forest_induction with
  | nil => rfl
  | text run more ih =>
    rw [bareHeaders_text] at settled
    rw [rereadAll_text, refillAll_text, refillAll_text, ih settled]
  | block block body more inside after =>
    by_cases opened : opens block.start.name = true
    · rw [bareHeaders_opened opened] at settled
      rw [rereadAll_opened opened, refillAll_opened opened, refillAll_opened opened,
        after (settled.imp_right (by omega)), inside (settled.imp_right (by omega))]
    · have opened' : ¬opens (block.leading content).start.name = true := opened
      rw [bareHeaders_filled opened] at settled
      have none : block.lead content = [] := by
        unfold Block.lead
        split
        · rename_i bare
          rw [if_pos bare] at settled
          exact settled.resolve_right (by omega)
        · rfl
      rw [rereadAll_filled opened, refillAll_filled opened', refillAll_filled opened,
        after (settled.imp_right (by omega)), Block.leading, none, List.append_nil]

end Refill

section Used
variable {uses : Header.ActionName → Prop} {opens : Header.ActionName → Bool} {content : Text}
  {nodes nodes' : List Node}

/-- What is read from filled nodes uses no names that the nodes do not. -/
theorem used_of_reread (used : ∀ block ∈ Tree.postorderAll nodes, uses block.start.name)
    (same : Tree.relabelAll Block.reading nodes' =
      Tree.relabelAll Block.reading (rereadAll opens content nodes)) :
    ∀ block ∈ Tree.postorderAll nodes', uses block.start.name := by
  induction nodes using Tree.forest_induction generalizing nodes' with
  | nil =>
    rw [Tree.eq_nil_of_relabelAll same]
    exact nofun
  | text run more ih =>
    obtain ⟨rest, rfl, later⟩ := Tree.eq_text_of_relabelAll same
    rw [Tree.postorderAll_text] at used ⊢
    exact ih used later
  | block block body more inside after =>
    simp only [Tree.postorderAll_block, List.forall_mem_append, List.forall_mem_cons] at used
    by_cases opened : opens block.start.name = true
    · rw [rereadAll_opened opened] at same
      obtain ⟨block', inner, rest, rfl, alike, within, later⟩ := Tree.eq_block_of_relabelAll same
      have named : block'.start.name = block.start.name := congrArg Reading.name alike
      simp only [Tree.postorderAll_block, List.forall_mem_append, List.forall_mem_cons, named]
      exact ⟨inside used.1 within, used.2.1, after used.2.2 later⟩
    · rw [rereadAll_filled opened] at same
      obtain ⟨block', inner, rest, rfl, alike, within, later⟩ := Tree.eq_block_of_relabelAll same
      have named : block'.start.name = block.start.name := congrArg Reading.name alike
      rw [Tree.relabelAll_ofText] at within
      have none : Tree.postorderAll (Tree.ofText (content.drop (block.lead content).length) : List Node) =
          [] := by
        generalize content.drop (block.lead content).length = text
        cases text <;> rfl
      simp only [Tree.eq_ofText_of_relabelAll within, none, Tree.postorderAll_block, List.nil_append,
        List.forall_mem_cons, named]
      exact ⟨used.2.1, after used.2.2 later⟩

theorem heightAll_refillAll_le (opens : Header.ActionName → Bool) (content : Text) (nodes : List Node) :
    Tree.heightAll (refillAll opens content nodes) ≤ Tree.heightAll nodes := by
  induction nodes using Tree.forest_induction with
  | nil => exact Nat.le_refl _
  | text run more ih => simpa using ih
  | block block body more inside after =>
    by_cases opened : opens block.start.name = true
    · rw [refillAll_opened opened, Tree.heightAll_block, Tree.heightAll_block]
      omega
    · rw [refillAll_filled opened, Tree.heightAll_block, Tree.heightAll_block, Tree.heightAll_ofText]
      omega

end Used

end Node

namespace Chunk

section Leading
variable {settings : Settings} {file : String} {header raw : Text} {loc : Position} {start : Start}

/-- A marker says the same with another text. -/
theorem ofMarker_raw (read : ofMarker settings file header raw loc = .ok (.start start)) (raw' : Text) :
    ofMarker settings file header raw' loc = .ok (.start { start with raw := raw' }) := by
  unfold ofMarker at read ⊢
  split at read
  · cases read
  · split at read
    · cases read
    · cases read
      rfl
    · cases read

/-- A header without a line break can be given one. -/
theorem Marks.leading {pieces : Pieces} {name : Header.ActionName}
    {params : List (String × Header.Literal)} {lineBreak : Text}
    (marks : Marks pieces (.start name params raw)) (bare : pieces.lineBreak = [])
    (form : lineBreak = [] ∨ lineBreak = ['\n'] ∨ lineBreak = ['\r', '\n']) :
    Marks { pieces with lineBreak := lineBreak } (.start name params (raw ++ lineBreak)) := by
  have spelled : raw ++ lineBreak = ({ pieces with lineBreak := lineBreak } : Pieces).raw := by
    have same : raw = pieces.raw := marks.raw
    simp [same, Pieces.raw, Pieces.tail, bare]
  refine ⟨marks.opens, ?_, form, spelled, ?_⟩
  · have closes := untilCloser_append marks.closes lineBreak
    simpa [Pieces.tail, bare] using closes
  · intro file loc
    obtain ⟨chunk, read, said⟩ := marks.reads file loc
    cases chunk with
    | text => cases said
    | stop => cases said
    | start start =>
      cases said
      refine ⟨_, ofMarker_raw read _, ?_⟩
      rw [spelled]
      rfl

/-- The header of a block that takes the line break of a content is a header still. -/
theorem sound_leading {block : Block} (sound : Sound (Node.bareStart block)) (content : Text) :
    Sound (Node.bareStart (block.leading content)) := by
  obtain ⟨pieces, marks⟩ := (sound_marker_iff rfl).mp sound
  refine (sound_marker_iff rfl).mpr ?_
  by_cases bare : block.start.raw.getLast? = some '>'
  · have none : pieces.lineBreak = [] := by
      have raw : block.start.raw = pieces.raw := marks.raw
      rw [raw, Pieces.raw, Pieces.tail] at bare
      rcases marks.breaks with none | feed | pair
      · exact none
      · simp [feed] at bare
      · simp [pair] at bare
    exact ⟨_, marks.leading none (block.lead_form content)⟩
  · have none : block.lead content = [] := if_neg bare
    refine ⟨pieces, ?_⟩
    rwa [Node.bareStart, Block.leading, none, List.append_nil]

/-- What is left of a content fits after the header that took its line break. -/
theorem fits_leading (block : Block) (content : Text) :
    Fits (Node.bareStart (block.leading content))
      (.text (content.drop (block.lead content).length)) := by
  intro _
  refine ⟨rfl, fun last => ?_⟩
  have bare : block.start.raw.getLast? = some '>' := by
    by_contra other
    change (block.start.raw ++ block.lead content).getLast? = some '>' at last
    rw [Block.lead, if_neg other, List.append_nil] at last
    exact other last
  have taken : block.lead content = Chunk.newline content := if_pos bare
  have none : Chunk.newline content = [] := by
    change (block.start.raw ++ block.lead content).getLast? = some '>' at last
    rw [taken] at last
    rcases (owns_newline content).form with none | feed | pair
    · exact none
    · simp [feed] at last
    · simp [pair] at last
  have whole := (owns_newline content).whole none
  rw [← taken] at whole
  exact whole

/-- A marker can be replaced together with what stands between it and the next one. -/
theorem Legible.marker_between {before inner after : List Bare} {first marker last : Bare}
    (others : List Bare) (legible : Legible (before ++ first :: (inner ++ last :: after)))
    (opens : marker.isText = false)
    (sound : ∀ bare ∈ marker :: others, Sound bare)
    (fits : (marker :: (others ++ [last])).IsChain Fits) :
    Legible (before ++ marker :: (others ++ last :: after)) := by
  obtain ⟨front, back⟩ := List.isChain_split.mp legible.fits
  rw [← List.cons_append] at back
  obtain ⟨-, rest⟩ := List.isChain_split.mp back
  constructor
  · intro bare member
    have kept : bare ∈ marker :: others ∨ bare ∈ before ++ first :: (inner ++ last :: after) := by
      simp only [List.mem_append, List.mem_cons] at member ⊢
      tauto
    rcases kept with added | old
    · exact sound bare added
    · exact legible.sound bare old
  · refine List.isChain_split.mpr ⟨?_, ?_⟩
    · obtain ⟨chain, -, -⟩ := List.isChain_append.mp front
      refine List.isChain_append.mpr ⟨chain, .singleton marker, ?_⟩
      intro left _ right here
      cases here
      exact fits_marker opens
    · rw [← List.cons_append] at fits ⊢
      exact List.isChain_split.mpr ⟨fits, rest⟩

end Leading

/-- Nodes that are read from filled ones are legible, if the content holds no opener. -/
theorem legible_rereadAll {opens : Header.ActionName → Bool} {content : Text}
    (plain : ∀ opener ∈ Settings.standard.openers, ¬opener <:+: content) (nodes : List Node)
    (before after : List Bare) (legible : Legible (before ++ (Node.baresAll nodes ++ after))) :
    Legible (before ++ (Node.baresAll (Node.rereadAll opens content nodes) ++ after)) := by
  induction nodes using Tree.forest_induction generalizing before after with
  | nil => exact legible
  | text run more ih =>
    have later := ih (before ++ [.text run]) after (by simpa using legible)
    simpa using later
  | block block body more inside outside =>
    by_cases opened : opens block.start.name = true
    · rw [Node.rereadAll_opened opened]
      have within := inside (before ++ [Node.bareStart block])
        (Node.bareStop block :: (Node.baresAll more ++ after)) (by simpa using legible)
      have beyond := outside (before ++ (Node.bareStart block ::
        (Node.baresAll (Node.rereadAll opens content body) ++ [Node.bareStop block]))) after
        (by simpa using within)
      simpa using beyond
    · rw [Node.rereadAll_filled opened]
      have within : Legible (before ++ Node.bareStart (block.leading content) ::
          (Node.baresAll (Tree.ofText (content.drop (block.lead content).length)) ++
            Node.bareStop block :: (Node.baresAll more ++ after))) := by
        have marker := sound_leading (legible.sound (Node.bareStart block) (by simp)) content
        have enters := fits_leading block content
        have clean : ∀ opener ∈ Settings.standard.openers,
            ¬opener <:+: content.drop (block.lead content).length :=
          fun opener member within => plain opener member (within.trans (List.drop_suffix ..).isInfix)
        have shaped : Legible (before ++ Node.bareStart block :: (Node.baresAll body ++
            Node.bareStop block :: (Node.baresAll more ++ after))) := by simpa using legible
        generalize content.drop (block.lead content).length = rest at enters clean
        cases rest with
        | nil =>
          exact shaped.marker_between [] rfl (by simpa using marker)
            (.cons_cons (fits_marker rfl) (.singleton _))
        | cons c rest =>
          refine shaped.marker_between [.text (c :: rest)] rfl ?_
            (.cons_cons enters (.cons_cons (fits_marker rfl) (.singleton _)))
          simpa using ⟨marker, sound_text_iff.mpr ⟨by simp, clean⟩⟩
      have beyond := outside (before ++ (Node.bareStart (block.leading content) ::
        (Node.baresAll (Tree.ofText (content.drop (block.lead content).length)) ++
          [Node.bareStop block]))) after (by simpa using within)
      have stop : Node.bareStop (block.leading content) = Node.bareStop block := rfl
      simpa [stop] using beyond

end Chunk

end Regen
