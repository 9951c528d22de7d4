import Regen.Proofs.Advance
import Regen.Proofs.FencedBlocks

/-! Lines of code. A document counts line feeds, while the lines of a text also end at
other breaks. The two agree on the lines that end in a line feed, so what stands after
some lines is on a line of the document that falls short of their number by the breaks
of other kinds among them. -/
namespace Regen

namespace Text

/-- The number of lines that end in no line feed. -/
def strayBreaks (lines : List Text) : Nat :=
  lines.countP fun line => decide (line.getLast? ≠ some '\n')

section StrayBreaks
variable {text line body ending : Text} {lines : List Text}

theorem strayBreaks_eq_zero_iff : strayBreaks lines = 0 ↔ ∀ line ∈ lines, line.getLast? = some '\n' := by
  simp [strayBreaks, List.countP_eq_zero]

theorem not_lineFeed_mem (plain : ∀ c ∈ body, isLineBreak c = false) : '\n' ∉ body := by
  intro member
  exact absurd (plain _ member) (by decide)

theorem Lined.flatten (lined : Lined text lines) : lines.flatten = text := by
  rw [lined.unique (lined_lines text), flatten_lines]

/-- A line has one line feed at most, and that ends the line. -/
theorem Lined.lineFeeds_line (lined : Lined text lines) (member : line ∈ lines) :
    lineFeeds line = if line.getLast? = some '\n' then 1 else 0 := by
  induction lined with
  | nil => cases member
  | @last body filled plain =>
    obtain rfl := List.mem_singleton.mp member
    have none := not_lineFeed_mem plain
    rw [lineFeeds, List.count_eq_zero.mpr none, if_neg fun last => none (List.mem_of_getLast? last)]
  | @cons body ending rest more plain ends _ _ ih =>
    rcases List.mem_cons.mp member with rfl | member
    · have level : List.count '\n' body = 0 := List.count_eq_zero.mpr (not_lineFeed_mem plain)
      rcases ends with rfl | ⟨c, -, rfl⟩
      · simp [lineFeeds, level]
      · by_cases feed : c = '\n'
        · simp [lineFeeds, level, feed]
        · simp [lineFeeds, level, feed]
    · exact ih member

/-- Lines are as many as the line feeds in them and the lines that end in none. -/
theorem length_eq_lineFeeds (single : ∀ line ∈ lines,
      lineFeeds line = if line.getLast? = some '\n' then 1 else 0) :
    lines.length = lineFeeds lines.flatten + strayBreaks lines := by
  induction lines with
  | nil => rfl
  | cons line lines ih =>
    obtain ⟨first, single⟩ := List.forall_mem_cons.mp single
    have split : lineFeeds (line ++ lines.flatten) = lineFeeds line + lineFeeds lines.flatten :=
      List.count_append
    rw [List.length_cons, List.flatten_cons, split, first, ih single, strayBreaks, strayBreaks,
      List.countP_cons]
    by_cases feed : line.getLast? = some '\n'
    · simp [feed]
      omega
    · simp [feed]
      omega

end StrayBreaks
end Text

namespace Fence

/-- The first fenced block of a text, all of whose blocks are closed: the language, the
lines before the code, the opening fence being the last of them, and those of the code. -/
inductive FirstBlock (content language : Text) : List Text → List Text → Prop
  | mk {outside code rest : List Text} {opener closer : Text} {segments : List Segment} :
    Text.Lined content (outside ++ opener :: (code ++ closer :: rest)) →
    (∀ line ∈ outside, Plain line) → Opens opener language →
    (∀ line ∈ code, ¬Closes line) → Closes closer → Cut rest segments →
    FirstBlock content language (outside ++ [opener]) code

section FirstBlock
variable {content language text : Text} {before code lines run : List Text} {start number : Int}
  {parts : List Part}

/-- The text begins with the lines before the code, and the code. -/
theorem FirstBlock.whole (first : FirstBlock content language before code) :
    ∃ after, content = before.flatten ++ code.flatten ++ after := by
  cases first with
  | @mk outside _ rest opener closer _ lined =>
    refine ⟨closer ++ rest.flatten, ?_⟩
    rw [← lined.flatten]
    simp

/-- Before the code, lines are as many as the line feeds in them and the other breaks. -/
theorem FirstBlock.length_eq (first : FirstBlock content language before code) :
    before.length = Text.lineFeeds before.flatten + Text.strayBreaks before := by
  cases first with
  | @mk outside _ rest opener closer _ lined =>
    refine Text.length_eq_lineFeeds fun line member => lined.lineFeeds_line ?_
    rcases List.mem_append.mp member with member | member
    · exact List.mem_append_left _ member
    · rw [List.mem_singleton.mp member]
      exact List.mem_append_cons_self

theorem firstCode?_ofRun (run : List Text) (number : Int) (parts : List Part) :
    firstCode? (ofRun number run ++ parts) = firstCode? parts := by
  unfold ofRun
  split <;> rfl

theorem FirstBlock.firstCode? (first : FirstBlock content language before code) (number : Int) :
    ∃ parts, split content number = .ok parts ∧
      Fence.firstCode? parts = some (language, number + before.length, code.flatten) := by
  cases first with
  | @mk outside _ rest opener closer segments lined plain opens inside closes cut =>
    have place : number + (outside ++ [opener]).length = number + outside.length + 1 := by
      rw [List.length_append, List.length_singleton]
      omega
    rw [split, ← lined.unique (Text.lined_lines content), splitLines_plain plain, List.nil_append,
      splitLines_block opens inside closes, cut.splitLines, place]
    exact ⟨_, rfl, firstCode?_ofRun ..⟩

/-- The first code that is found in lines stands in a block that no other block comes before. -/
theorem block_of_splitLines (done : splitLines run number lines = .ok parts)
    (found : firstCode? parts = some (language, start, text)) :
    ∃ outside opener code closer rest segments, lines = outside ++ opener :: (code ++ closer :: rest) ∧
      (∀ line ∈ outside, Plain line) ∧ Opens opener language ∧ (∀ line ∈ code, ¬Closes line) ∧
      Closes closer ∧ Cut rest segments ∧ start = number + outside.length + 1 ∧ text = code.flatten := by
  fun_induction splitLines run number lines generalizing parts with
  | case1 run number =>
    cases done
    rw [← List.append_nil (ofRun _ run), firstCode?_ofRun] at found
    cases found
  | case2 run number line more none ih =>
    obtain ⟨outside, opener, code, closer, rest, segments, rfl, plain, opens, inside, closes, cut, rfl,
      rfl⟩ := ih done found
    refine ⟨line :: outside, opener, code, closer, rest, segments, rfl,
      List.forall_mem_cons.mpr ⟨plain_of_opening? none, plain⟩, opens, inside, closes, cut, ?_, rfl⟩
    rw [List.length_cons]
    omega
  | case3 => cases done
  | case4 => cases done
  | case5 run number line more tag opened code rest closed parts later ih =>
    cases done
    rw [firstCode?_ofRun] at found
    cases found
    obtain ⟨closer, rfl, closes, inside⟩ := closes_of_untilClosing closed
    obtain ⟨segments, cut⟩ := cut_of_splitLines (List.forall_mem_nil Plain) later
    refine ⟨[], line, code, closer, rest, segments, rfl, List.forall_mem_nil Plain,
      opening?_eq_some_iff.mp opened, inside, closes, cut, ?_, rfl⟩
    simp

/-- The code found first is that of the first block, numbered by the lines before it. -/
theorem firstCode?_split_iff : (∃ parts, split content number = .ok parts ∧
      firstCode? parts = some (language, start, text)) ↔
    ∃ before code, FirstBlock content language before code ∧ start = number + before.length ∧
      text = code.flatten := by
  constructor
  · rintro ⟨parts, done, found⟩
    obtain ⟨outside, opener, code, closer, rest, segments, whole, plain, opens, inside, closes, cut, rfl,
      rfl⟩ := block_of_splitLines done found
    refine ⟨_, code, .mk (whole ▸ Text.lined_lines content) plain opens inside closes cut, ?_, rfl⟩
    rw [List.length_append, List.length_singleton]
    omega
  · rintro ⟨before, code, first, rfl, rfl⟩
    exact first.firstCode? number

end FirstBlock
end Fence
end Regen
