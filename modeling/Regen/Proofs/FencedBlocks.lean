import Mathlib.Data.List.Chain
import Mathlib.Data.List.TakeWhile
import Regen.Builtin.Fence

/-! Fenced blocks. The lines of a text are cut, from the first to the last, into runs
of lines that open no block and blocks from an opening fence to the first closing
one. There is at most one such cut; a text is split into the parts that it is made
of, or else refused for the one block that is left open. -/
namespace Regen

namespace Text

/-- A line break: a character that ends a line, or a carriage return with the line
feed after it. -/
def IsBreak (ending : Text) : Prop :=
  ending = ['\r', '\n'] ∨ ∃ c, isLineBreak c = true ∧ ending = [c]

/-- A text and its lines. Each line holds the break that ends it, and only the last
one may have none; a line feed after a carriage return begins no line. -/
inductive Lined : Text → List Text → Prop
  | nil : Lined [] []
  | last {body : Text} : body ≠ [] → (∀ c ∈ body, isLineBreak c = false) → Lined body [body]
  | cons {body ending rest : Text} {more : List Text} :
    (∀ c ∈ body, isLineBreak c = false) → IsBreak ending →
    (ending = ['\r'] → rest.head? ≠ some '\n') → Lined rest more →
    Lined (body ++ ending ++ rest) ((body ++ ending) :: more)

section Lined
variable {text : Text} {all : List Text} {c : Char}

theorem Lined.ne_nil (lined : Lined text all) : ∀ line ∈ all, line ≠ [] := by
  induction lined with
  | nil => simp
  | last filled _ => simpa using filled
  | cons _ ends _ _ ih =>
    intro line member
    rcases List.mem_cons.mp member with rfl | member
    · rcases ends with rfl | ⟨c, -, rfl⟩ <;> simp
    · exact ih line member

/-- A character that ends no line becomes the first one of the first line. -/
theorem Lined.lengthen (lined : Lined text all) (inside : isLineBreak c = false) :
    Lined (c :: text) (match all with
      | [] => [[c]]
      | line :: more => (c :: line) :: more) := by
  have inner {body : Text} (plain : ∀ d ∈ body, isLineBreak d = false) :
      ∀ d ∈ c :: body, isLineBreak d = false := List.forall_mem_cons.mpr ⟨inside, plain⟩
  cases lined with
  | nil => exact .last (by simp) (inner (by simp))
  | last _ plain => exact .last (by simp) (inner plain)
  | cons plain ends whole more => exact .cons (inner plain) ends whole more

theorem lined_lines (text : Text) : Lined text (lines text) := by
  fun_induction lines text with
  | case1 => exact .nil
  | case2 rest ih => exact @Lined.cons [] _ _ _ (by simp) (.inl rfl) (by simp) ih
  | case3 c rest pair ends ih =>
    refine @Lined.cons [] _ _ _ (by simp) (.inr ⟨c, ends, rfl⟩) (fun single feed => ?_) ih
    obtain ⟨tail, rfl⟩ := List.head?_eq_some_iff.mp feed
    exact pair tail (List.singleton_inj.mp single) rfl
  | case4 c rest _ inside none ih =>
    rw [none] at ih
    exact ih.lengthen (eq_false_of_ne_true inside)
  | case5 c rest _ inside line more some ih =>
    rw [some] at ih
    exact ih.lengthen (eq_false_of_ne_true inside)

theorem IsBreak.eq_cons {ending : Text} (ends : IsBreak ending) :
    ∃ c tail, ending = c :: tail ∧ isLineBreak c = true := by
  rcases ends with rfl | ⟨c, isBreak, rfl⟩
  · exact ⟨'\r', ['\n'], rfl, by decide⟩
  · exact ⟨c, [], rfl, isBreak⟩

/-- The body of a line goes on to the break that ends it. -/
theorem takeWhile_body {body ending : Text} (plain : ∀ c ∈ body, isLineBreak c = false)
    (ends : IsBreak ending) (rest : Text) :
    (body ++ ending ++ rest).takeWhile (fun c => !isLineBreak c) = body := by
  obtain ⟨c, tail, rfl, isBreak⟩ := ends.eq_cons
  rw [List.append_assoc, List.takeWhile_append_of_pos (by simpa using plain), List.cons_append,
    List.takeWhile_cons_of_neg (by simp [isBreak]), List.append_nil]

theorem ne_of_break {body front ending rest : Text} (plain : ∀ c ∈ body, isLineBreak c = false)
    (ends : IsBreak ending) : body ≠ front ++ ending ++ rest := by
  rintro rfl
  obtain ⟨c, tail, rfl, isBreak⟩ := ends.eq_cons
  rw [plain c (by simp)] at isBreak
  cases isBreak

/-- A break that could be longer is. -/
theorem IsBreak.unique {ending ending' rest rest' : Text} (ends : IsBreak ending)
    (ends' : IsBreak ending') (whole : ending = ['\r'] → rest.head? ≠ some '\n')
    (whole' : ending' = ['\r'] → rest'.head? ≠ some '\n') (same : ending ++ rest = ending' ++ rest') :
    ending = ending' := by
  rcases ends with rfl | ⟨c, -, rfl⟩ <;> rcases ends' with rfl | ⟨c', -, rfl⟩
  · rfl
  · cases same
    exact absurd rfl (whole' rfl)
  · cases same
    exact absurd rfl (whole rfl)
  · cases same
    rfl

/-- A text has one list of lines. -/
theorem Lined.unique {all' : List Text} (lined : Lined text all) (lined' : Lined text all') :
    all = all' := by
  induction lined generalizing all' with
  | nil =>
    generalize same : ([] : Text) = text at lined'
    cases lined' with
    | nil => rfl
    | last filled _ => exact absurd same.symm filled
    | cons _ ends _ _ => exact absurd same (ne_of_break nofun ends)
  | @last body filled plain =>
    generalize same : body = text at lined'
    cases lined' with
    | nil => exact absurd same filled
    | last _ _ => rfl
    | cons _ ends _ _ => exact absurd same (ne_of_break plain ends)
  | @cons body ending rest more plain ends whole later ih =>
    generalize same : body ++ ending ++ rest = text at lined'
    cases lined' with
    | nil => exact absurd same.symm (ne_of_break nofun ends)
    | last _ plain' => exact absurd same.symm (ne_of_break plain' ends)
    | @cons body' ending' rest' more' plain' ends' whole' later' =>
      obtain rfl : body = body' := by
        rw [← takeWhile_body plain ends rest, same, takeWhile_body plain' ends']
      rw [List.append_assoc, List.append_assoc] at same
      have tails := List.append_cancel_left same
      obtain rfl := ends.unique ends' whole whole' tails
      rw [List.append_cancel_left tails] at ih
      rw [ih later']

end Lined

section Trim
variable {text front breaks : Text}

/-- What is trimmed from the end of a text are carriage returns and line feeds. -/
theorem trimNewlines_restores (text : Text) :
    ∃ breaks, text = trimNewlines text ++ breaks ∧ ∀ c ∈ breaks, c = '\n' ∨ c = '\r' := by
  refine ⟨(text.reverse.takeWhile fun c => c == '\n' || c == '\r').reverse, ?_, ?_⟩
  · rw [trimNewlines, trimEnd, ← List.reverse_append, List.takeWhile_append_dropWhile,
      List.reverse_reverse]
  · intro c member
    simpa using List.all_eq_true.mp List.all_takeWhile c (List.mem_reverse.mp member)

theorem trimNewlines_append (inside : ∀ c ∈ front, c ≠ '\n' ∧ c ≠ '\r')
    (trailing : ∀ c ∈ breaks, c = '\n' ∨ c = '\r') : trimNewlines (front ++ breaks) = front := by
  have drops : ∀ c ∈ breaks.reverse, (c == '\n' || c == '\r') = true := by
    simpa using trailing
  have keeps : front.reverse.dropWhile (fun c => c == '\n' || c == '\r') = front.reverse := by
    rw [List.dropWhile_eq_self_iff]
    intro some
    have last := inside _ (List.mem_reverse.mp (List.getElem_mem some))
    simpa using last
  rw [trimNewlines, trimEnd, List.reverse_append, List.dropWhile_append_of_pos drops, keeps,
    List.reverse_reverse]

end Trim
end Text

namespace Fence
open Text (trimNewlines trimNewlines_restores trimNewlines_append)

/-- The three backticks that begin a fence. -/
def ticks : Text := ['\x60', '\x60', '\x60']

/-- What may end a fence: spaces and tabs, and after them carriage returns and line
feeds. Other breaks are none of its own. -/
def IsBlankEnd (tail : Text) : Prop :=
  ∃ padding breaks, tail = padding ++ breaks ∧
    (∀ c ∈ padding, c = ' ' ∨ c = '\t') ∧ ∀ c ∈ breaks, c = '\n' ∨ c = '\r'

/-- A line is an opening fence with the name of a language, which may be empty. -/
def Opens (line language : Text) : Prop :=
  ∃ tail, line = ticks ++ (language ++ tail) ∧
    (∀ c ∈ language, isLanguageChar c = true) ∧ IsBlankEnd tail

/-- A line is a closing fence. -/
def Closes (line : Text) : Prop :=
  ∃ tail, line = ticks ++ tail ∧ IsBlankEnd tail

/-- A line outside all blocks opens none. -/
def Plain (line : Text) : Prop := ∀ language, ¬Opens line language

section Fences
variable {line language rest padding breaks closer : Text} {lines code after : List Text} {c : Char}

theorem isPadding_iff : isPadding padding = true ↔ ∀ c ∈ padding, c = ' ' ∨ c = '\t' := by
  simp [isPadding]

theorem not_break_of_languageChar (named : isLanguageChar c = true) : c ≠ '\n' ∧ c ≠ '\r' := by
  constructor <;> rintro rfl <;> exact absurd named (by decide)

theorem not_languageChar_of_padding (blank : c = ' ' ∨ c = '\t') : ¬isLanguageChar c = true := by
  rcases blank with rfl | rfl <;> decide

theorem not_break_of_padding (blank : c = ' ' ∨ c = '\t') : c ≠ '\n' ∧ c ≠ '\r' := by
  rcases blank with rfl | rfl <;> decide

theorem mark?_append (inside : ∀ c ∈ rest, c ≠ '\n' ∧ c ≠ '\r')
    (trailing : ∀ c ∈ breaks, c = '\n' ∨ c = '\r') :
    mark? (ticks ++ (rest ++ breaks)) = some rest := by
  have whole : ∀ c ∈ ticks ++ rest, c ≠ '\n' ∧ c ≠ '\r' :=
    List.forall_mem_append.mpr ⟨by simp [ticks], inside⟩
  rw [mark?, ← List.append_assoc, trimNewlines_append whole trailing]
  exact Text.after?_append ticks rest

theorem eq_append_of_mark? (found : mark? line = some rest) :
    ∃ breaks, line = ticks ++ (rest ++ breaks) ∧ ∀ c ∈ breaks, c = '\n' ∨ c = '\r' := by
  obtain ⟨breaks, whole, trailing⟩ := trimNewlines_restores line
  have trimmed : trimNewlines line = ticks ++ rest := Text.eq_append_of_after? found
  rw [trimmed, List.append_assoc] at whole
  exact ⟨breaks, whole, trailing⟩

theorem opening?_eq_some_iff : opening? line = some language ↔ Opens line language := by
  rw [opening?, Option.bind_eq_some_iff]
  constructor
  · rintro ⟨rest, found, named⟩
    obtain ⟨breaks, rfl, trailing⟩ := eq_append_of_mark? found
    obtain ⟨blank, same⟩ := Option.ite_none_right_eq_some.mp named
    cases same
    refine ⟨rest.dropWhile isLanguageChar ++ breaks, ?_, fun c => List.mem_takeWhile_imp,
      _, breaks, rfl, isPadding_iff.mp blank, trailing⟩
    rw [← List.append_assoc (rest.takeWhile _), List.takeWhile_append_dropWhile]
  · rintro ⟨_, rfl, named, padding, breaks, rfl, blank, trailing⟩
    have inside : ∀ c ∈ language ++ padding, c ≠ '\n' ∧ c ≠ '\r' :=
      List.forall_mem_append.mpr ⟨fun c member => not_break_of_languageChar (named c member),
        fun c member => not_break_of_padding (blank c member)⟩
    refine ⟨language ++ padding, ?_, ?_⟩
    · rw [← List.append_assoc language, mark?_append inside trailing]
    · have stops : padding.takeWhile isLanguageChar = [] := by
        cases padding with
        | nil => rfl
        | cons c padding =>
          exact List.takeWhile_cons_of_neg (not_languageChar_of_padding (blank c List.mem_cons_self))
      have stays : padding.dropWhile isLanguageChar = padding := by
        have whole := List.takeWhile_append_dropWhile (p := isLanguageChar) (l := padding)
        rwa [stops, List.nil_append] at whole
      rw [List.dropWhile_append_of_pos named, List.takeWhile_append_of_pos named, stops, stays,
        List.append_nil, if_pos (isPadding_iff.mpr blank)]

theorem isClosing_iff : isClosing line = true ↔ Closes line := by
  unfold isClosing
  constructor
  · intro closing
    split at closing
    · rename_i rest found
      obtain ⟨breaks, rfl, trailing⟩ := eq_append_of_mark? found
      exact ⟨rest ++ breaks, rfl, rest, breaks, rfl, isPadding_iff.mp closing, trailing⟩
    · cases closing
  · rintro ⟨_, rfl, padding, breaks, rfl, blank, trailing⟩
    rw [mark?_append (fun c member => not_break_of_padding (blank c member)) trailing]
    exact isPadding_iff.mpr blank

theorem opening?_of_plain (plain : Plain line) : opening? line = none :=
  Option.eq_none_iff_forall_not_mem.mpr fun language found =>
    plain language (opening?_eq_some_iff.mp found)

/-- The code of a block goes on to the first closing fence. -/
theorem untilClosing_of_closes (inside : ∀ line ∈ code, ¬Closes line) (closes : Closes closer)
    (after : List Text) : untilClosing (code ++ closer :: after) = some (code, after) := by
  induction code with
  | nil => rw [List.nil_append, untilClosing, if_pos (isClosing_iff.mpr closes)]
  | cons line code ih =>
    obtain ⟨first, inside⟩ := List.forall_mem_cons.mp inside
    rw [List.cons_append, untilClosing, if_neg (mt isClosing_iff.mp first), ih inside]
    rfl

theorem untilClosing_eq_none_iff : untilClosing lines = none ↔ ∀ line ∈ lines, ¬Closes line := by
  induction lines with
  | nil => simp [untilClosing]
  | cons line lines ih =>
    rw [untilClosing, List.forall_mem_cons, ← isClosing_iff]
    split
    · simp [*]
    · simp [*]

theorem closes_of_untilClosing (found : untilClosing lines = some (code, after)) :
    ∃ closer, lines = code ++ closer :: after ∧ Closes closer ∧ ∀ line ∈ code, ¬Closes line := by
  induction lines generalizing code with
  | nil => cases found
  | cons line lines ih =>
    rw [untilClosing] at found
    split at found
    · rename_i closing
      cases found
      exact ⟨line, rfl, isClosing_iff.mp closing, by simp⟩
    · rename_i inside
      obtain ⟨later, stops, same⟩ := Option.map_eq_some_iff.mp found
      cases same
      obtain ⟨closer, rfl, closes, within⟩ := ih stops
      exact ⟨closer, rfl, closes, List.forall_mem_cons.mpr ⟨mt isClosing_iff.mpr inside, within⟩⟩

end Fences

/-- A piece of a text: a run of lines outside blocks, or a block with its fences. -/
inductive Segment where
  | run (lines : List Text)
  | block (opener language : Text) (code : List Text) (closer : Text)

namespace Segment

/-- The lines of a piece, fences included. -/
def lines : Segment → List Text
  | .run lines => lines
  | .block opener _ code closer => opener :: (code ++ [closer])

/-- The part that a piece is to a reader, the first of its lines having a number; what
is inside a block begins a line later. -/
def part (number : Int) : Segment → Part
  | .run lines => .text number lines.flatten
  | .block _ language code _ => .code language (number + 1) code.flatten

/-- A run has lines, and none that opens a block; a block ends at the first line that
closes it. -/
inductive Formed : Segment → Prop
  | run {lines : List Text} : lines ≠ [] → (∀ line ∈ lines, Plain line) → Formed (.run lines)
  | block {opener language closer : Text} {code : List Text} : Opens opener language →
    (∀ line ∈ code, ¬Closes line) → Closes closer → Formed (.block opener language code closer)

/-- The piece is a run. -/
def IsRun : Segment → Prop
  | .run _ => True
  | .block .. => False

/-- The parts that pieces are, the first line of the first one having a number. -/
def parts (number : Int) : List Segment → List Part
  | [] => []
  | segment :: more => segment.part number :: parts (number + segment.lines.length) more

end Segment

/-- Lines are cut into pieces: these make up the lines in their order, and no run
stops before the next block. -/
structure Cut (lines : List Text) (segments : List Segment) : Prop where
  whole : segments.flatMap Segment.lines = lines
  formed : ∀ segment ∈ segments, segment.Formed
  maximal : segments.IsChain fun segment next => ¬(segment.IsRun ∧ next.IsRun)

/-- After the lines `before`, which can be cut, a block opens that nothing closes. -/
structure LeftOpen (lines before : List Text) : Prop where
  cut : ∃ segments, Cut before segments
  opens : ∃ opener language code, lines = before ++ opener :: code ∧ Opens opener language ∧
    ∀ line ∈ code, ¬Closes line

/-- There are no more lines, or the next one opens a block. -/
def Stops (lines : List Text) : Prop := ∀ line ∈ lines.head?, ∃ language, Opens line language

section Segments
variable {opener language closer : Text} {run lines code after : List Text} {segment : Segment}
  {segments more : List Segment} {number : Int}

theorem Cut.nil : Cut [] [] := ⟨rfl, by simp, .nil⟩

theorem stops_nil : Stops [] := nofun

theorem stops_cons (opens : Opens opener language) (lines : List Text) : Stops (opener :: lines) := by
  rintro _ ⟨⟩
  exact ⟨language, opens⟩

theorem Stops.append (stops : Stops lines) (stops' : Stops after) : Stops (lines ++ after) := by
  cases lines with
  | nil => exact stops'
  | cons line lines => exact stops

theorem Segment.Formed.lines_ne_nil (formed : segment.Formed) : segment.lines ≠ [] := by
  cases formed with
  | run filled _ => exact filled
  | block => exact List.cons_ne_nil _ _

/-- A piece that is no run begins with a line that opens a block. -/
theorem Segment.Formed.stops_iff (formed : segment.Formed) (after : List Text) :
    Stops (segment.lines ++ after) ↔ ¬segment.IsRun := by
  cases formed with
  | @run lines filled plain =>
    cases lines with
    | nil => exact absurd rfl filled
    | cons line lines =>
      have first := plain line List.mem_cons_self
      simpa [Stops, Segment.lines, Segment.IsRun, Plain] using first
  | block opens => exact iff_of_true (stops_cons opens _) not_false

theorem cut_cons_iff : Cut lines (segment :: segments) ↔ ∃ after, lines = segment.lines ++ after ∧
    segment.Formed ∧ Cut after segments ∧ (segment.IsRun → Stops after) := by
  have apart_iff (formed : ∀ next ∈ segments, next.Formed) :
      (∀ next ∈ segments.head?, ¬(segment.IsRun ∧ next.IsRun)) ↔
        (segment.IsRun → Stops (segments.flatMap Segment.lines)) := by
    cases segments with
    | nil => simp [Stops]
    | cons next more =>
      rw [List.flatMap_cons, (formed next List.mem_cons_self).stops_iff]
      simp
  constructor
  · rintro ⟨rfl, formed, maximal⟩
    obtain ⟨first, formed⟩ := List.forall_mem_cons.mp formed
    obtain ⟨apart, maximal⟩ := List.isChain_cons.mp maximal
    exact ⟨_, List.flatMap_cons, first, ⟨rfl, formed, maximal⟩, (apart_iff formed).mp apart⟩
  · rintro ⟨_, rfl, first, ⟨rfl, formed, maximal⟩, stops⟩
    exact ⟨List.flatMap_cons, List.forall_mem_cons.mpr ⟨first, formed⟩,
      List.isChain_cons.mpr ⟨(apart_iff formed).mpr stops, maximal⟩⟩

/-- Plain lines go to the run before them. -/
theorem splitLines_plain (plain : ∀ line ∈ lines, Plain line) (run : List Text) (number : Int)
    (after : List Text) :
    splitLines run number (lines ++ after) =
      splitLines (run ++ lines) (number + lines.length) after := by
  induction lines generalizing run number with
  | nil => simp
  | cons line lines ih =>
    obtain ⟨first, plain⟩ := List.forall_mem_cons.mp plain
    rw [List.cons_append, splitLines, opening?_of_plain first]
    dsimp only
    rw [ih plain, List.append_assoc, List.singleton_append, List.length_cons]
    congr 1
    omega

theorem splitLines_block (opens : Opens opener language) (inside : ∀ line ∈ code, ¬Closes line)
    (closes : Closes closer) (run : List Text) (number : Int) (after : List Text) :
    splitLines run number (opener :: (code ++ closer :: after)) =
      (splitLines [] (number + code.length + 2) after).map fun parts =>
        ofRun (number - run.length) run ++ .code language (number + 1) code.flatten :: parts := by
  rw [splitLines, opening?_eq_some_iff.mpr opens]
  dsimp only
  split
  · rename_i never
    rw [untilClosing_of_closes inside closes] at never
    cases never
  · rename_i code' after' found
    rw [untilClosing_of_closes inside closes] at found
    cases found
    cases splitLines [] (number + code.length + 2) after <;> rfl

theorem splitLines_open (opens : Opens opener language) (inside : ∀ line ∈ code, ¬Closes line)
    (run : List Text) (number : Int) : splitLines run number (opener :: code) = .error number := by
  rw [splitLines, opening?_eq_some_iff.mpr opens]
  dsimp only
  split
  · rfl
  · rename_i found
    rw [untilClosing_eq_none_iff.mpr inside] at found
    cases found

/-- A run that stops is a part in front of those that follow. -/
theorem splitLines_run (stops : Stops after) (run : List Text) (number : Int) :
    splitLines run number after =
      (splitLines [] number after).map fun parts => ofRun (number - run.length) run ++ parts := by
  cases after with
  | nil => simp [splitLines, ofRun, Except.map]
  | cons opener lines =>
    obtain ⟨language, opens⟩ := stops opener rfl
    cases found : untilClosing lines with
    | none =>
      have inside := untilClosing_eq_none_iff.mp found
      rw [splitLines_open opens inside, splitLines_open opens inside]
      rfl
    | some cut =>
      obtain ⟨code, after⟩ := cut
      obtain ⟨closer, rfl, closes, inside⟩ := closes_of_untilClosing found
      rw [splitLines_block opens inside closes, splitLines_block opens inside closes]
      cases splitLines [] (number + code.length + 2) after <;> simp [Except.map, ofRun]

/-- A piece is read as the part that it is, and then what stands after it. -/
theorem Segment.Formed.splitLines_eq (formed : segment.Formed) (stops : segment.IsRun → Stops after)
    (number : Int) : splitLines [] number (segment.lines ++ after) =
      (splitLines [] (number + segment.lines.length) after).map (segment.part number :: ·) := by
  cases formed with
  | @run run filled plain =>
    have kept : ofRun (number + run.length - run.length) run = [.text number run.flatten] := by
      rw [Int.add_sub_cancel, ofRun, if_neg (by simpa using filled)]
    rw [Segment.lines, splitLines_plain plain, List.nil_append, splitLines_run (stops trivial), kept]
    rfl
  | @block opener language closer code opens inside closes =>
    have lines : (Segment.block opener language code closer).lines ++ after =
        opener :: (code ++ closer :: after) := by simp [Segment.lines]
    have place : number + (Segment.block opener language code closer).lines.length =
        number + code.length + 2 := by
      simp only [Segment.lines, List.length_cons, List.length_append, List.length_nil]
      omega
    rw [lines, splitLines_block opens inside closes, place]
    rfl

/-- Pieces are read one after the other, and then what stands after them. -/
theorem Cut.splitLines_eq (cut : Cut lines segments) (stops : Stops after) (number : Int) :
    splitLines [] number (lines ++ after) =
      (splitLines [] (number + lines.length) after).map (Segment.parts number segments ++ ·) := by
  -- What stands after the pieces stays open, so that the end and an open block are both cases.
  induction segments generalizing lines number with
  | nil =>
    obtain rfl : lines = [] := cut.whole.symm
    simp only [List.nil_append, List.length_nil, Int.natCast_zero, Int.add_zero, Segment.parts]
    cases splitLines [] number after <;> rfl
  | cons segment segments ih =>
    obtain ⟨rest, rfl, formed, later, ends⟩ := cut_cons_iff.mp cut
    have place : number + segment.lines.length + (rest.length : Int) =
        number + (segment.lines ++ rest).length := by
      rw [List.length_append]
      omega
    rw [List.append_assoc, formed.splitLines_eq fun isRun => (ends isRun).append stops,
      ih later, place, Segment.parts]
    cases splitLines [] (number + (segment.lines ++ rest).length) after <;> rfl

theorem Cut.splitLines (cut : Cut lines segments) (number : Int) :
    splitLines [] number lines = .ok (Segment.parts number segments) := by
  have read := cut.splitLines_eq stops_nil number
  rw [List.append_nil] at read
  rw [read, Fence.splitLines]
  simp [ofRun, Except.map]

theorem LeftOpen.splitLines {before : List Text} (leaves : LeftOpen lines before) (number : Int) :
    splitLines [] number lines = .error (number + before.length) := by
  obtain ⟨⟨segments, cut⟩, opener, language, code, rfl, opens, inside⟩ := leaves
  rw [cut.splitLines_eq (stops_cons opens code), splitLines_open opens inside]
  rfl

theorem Cut.append_run (cut : Cut lines segments) (stops : Stops lines)
    (plain : ∀ line ∈ run, Plain line) : ∃ segments, Cut (run ++ lines) segments := by
  by_cases empty : run = []
  · exact ⟨segments, by rwa [empty]⟩
  · exact ⟨.run run :: segments, cut_cons_iff.mpr ⟨lines, rfl, .run empty plain, cut, fun _ => stops⟩⟩

/-- A run and a block in front of lines that can be cut can be cut with them. -/
theorem Cut.append_block (cut : Cut lines segments) (plain : ∀ line ∈ run, Plain line)
    (opens : Opens opener language) (inside : ∀ line ∈ code, ¬Closes line) (closes : Closes closer) :
    ∃ segments, Cut (run ++ opener :: (code ++ closer :: lines)) segments := by
  have block : Cut (opener :: (code ++ closer :: lines))
      (.block opener language code closer :: segments) :=
    cut_cons_iff.mpr ⟨lines, by simp [Segment.lines], .block opens inside closes, cut, nofun⟩
  exact block.append_run (stops_cons opens _) plain

theorem LeftOpen.append_block {before : List Text} (leaves : LeftOpen lines before)
    (plain : ∀ line ∈ run, Plain line) (opens : Opens opener language)
    (inside : ∀ line ∈ code, ¬Closes line) (closes : Closes closer) :
    LeftOpen (run ++ opener :: (code ++ closer :: lines))
      (run ++ opener :: (code ++ closer :: before)) := by
  obtain ⟨⟨segments, cut⟩, opener', language', code', rfl, opens', inside'⟩ := leaves
  exact ⟨cut.append_block plain opens inside closes, opener', language', code', by simp, opens',
    inside'⟩

theorem plain_of_opening? {line : Text} (none : opening? line = none) : Plain line := by
  intro language opens
  rw [opening?_eq_some_iff.mpr opens] at none
  cases none

/-- What is split can be cut. -/
theorem cut_of_splitLines {parts : List Part} (plain : ∀ line ∈ run, Plain line)
    (done : splitLines run number lines = .ok parts) : ∃ segments, Cut (run ++ lines) segments := by
  fun_induction splitLines run number lines generalizing parts with
  | case1 run number => exact Cut.nil.append_run stops_nil plain
  | case2 run number line more none ih =>
    have further := ih
      (List.forall_mem_append.mpr ⟨plain, by simpa using plain_of_opening? none⟩) done
    rwa [List.append_assoc] at further
  | case3 => cases done
  | case4 => cases done
  | case5 run number line more language found code rest closed parts later ih =>
    obtain ⟨segments, cut⟩ := ih (by simp) later
    obtain ⟨closer, rfl, closes, inside⟩ := closes_of_untilClosing closed
    exact cut.append_block plain (opening?_eq_some_iff.mp found) inside closes

/-- What cannot be split has a block left open. -/
theorem leftOpen_of_splitLines {opened : Int} (plain : ∀ line ∈ run, Plain line)
    (failed : splitLines run number lines = .error opened) :
    ∃ before, LeftOpen (run ++ lines) before := by
  fun_induction splitLines run number lines generalizing opened with
  | case1 => cases failed
  | case2 run number line more none ih =>
    have further := ih
      (List.forall_mem_append.mpr ⟨plain, by simpa using plain_of_opening? none⟩) failed
    rwa [List.append_assoc] at further
  | case3 run number line more language found never =>
    obtain ⟨segments, cut⟩ := Cut.nil.append_run stops_nil plain
    rw [List.append_nil] at cut
    exact ⟨run, ⟨segments, cut⟩, line, language, more, rfl, opening?_eq_some_iff.mp found,
      untilClosing_eq_none_iff.mp never⟩
  | case4 run number line more language found code rest closed opened later ih =>
    obtain ⟨before, leaves⟩ := ih (by simp) later
    obtain ⟨closer, rfl, closes, inside⟩ := closes_of_untilClosing closed
    exact ⟨_, leaves.append_block plain (opening?_eq_some_iff.mp found) inside closes⟩
  | case5 => cases failed

/-- A run is as long as it can be. -/
theorem takeWhile_plain (plain : ∀ line ∈ run, Plain line) (stops : Stops after) :
    (run ++ after).takeWhile (fun line => (opening? line).isNone) = run := by
  have ends : after.takeWhile (fun line => (opening? line).isNone) = [] := by
    cases after with
    | nil => rfl
    | cons opener lines =>
      obtain ⟨language, opens⟩ := stops opener rfl
      exact List.takeWhile_cons_of_neg (by simp [opening?_eq_some_iff.mpr opens])
  rw [List.takeWhile_append_of_pos fun line member => by simp [opening?_of_plain (plain line member)],
    ends, List.append_nil]

/-- Lines can begin with one piece only. -/
theorem Segment.Formed.unique {segment' : Segment} {after' : List Text} (formed : segment.Formed)
    (formed' : segment'.Formed) (stops : segment.IsRun → Stops after)
    (stops' : segment'.IsRun → Stops after')
    (same : segment.lines ++ after = segment'.lines ++ after') : segment = segment' := by
  have alike : segment.IsRun ↔ segment'.IsRun := by
    rw [← not_iff_not, ← formed.stops_iff after, same, formed'.stops_iff]
  cases formed with
  | @run run filled plain =>
    cases formed' with
    | @run run' filled' plain' =>
      have whole : run ++ after = run' ++ after' := same
      rw [← takeWhile_plain plain (stops trivial), whole, takeWhile_plain plain' (stops' trivial)]
    | block => exact (alike.mp trivial).elim
  | @block opener language closer code opens inside closes =>
    cases formed' with
    | run => exact (alike.mpr trivial).elim
    | @block opener' language' closer' code' opens' inside' closes' =>
      simp only [Segment.lines, List.cons_append, List.append_assoc, List.nil_append, List.cons.injEq]
        at same
      obtain ⟨rfl, same⟩ := same
      have named := opening?_eq_some_iff.mpr opens
      rw [opening?_eq_some_iff.mpr opens'] at named
      have cut := untilClosing_of_closes inside closes after
      rw [same, untilClosing_of_closes inside' closes' after'] at cut
      cases named
      cases cut
      simpa using same

/-- There is one way at most to cut lines. -/
theorem Cut.unique {segments' : List Segment} (cut : Cut lines segments) (cut' : Cut lines segments') :
    segments = segments' := by
  induction segments generalizing lines segments' with
  | nil =>
    obtain rfl : lines = [] := cut.whole.symm
    cases segments' with
    | nil => rfl
    | cons segment' segments' =>
      obtain ⟨rest', split, formed', -, -⟩ := cut_cons_iff.mp cut'
      exact absurd (List.append_eq_nil_iff.mp split.symm).1 formed'.lines_ne_nil
  | cons segment segments ih =>
    obtain ⟨rest, rfl, formed, later, ends⟩ := cut_cons_iff.mp cut
    cases segments' with
    | nil => exact absurd (List.append_eq_nil_iff.mp cut'.whole.symm).1 formed.lines_ne_nil
    | cons segment' segments' =>
      obtain ⟨rest', split, formed', later', ends'⟩ := cut_cons_iff.mp cut'
      obtain rfl := formed.unique formed' ends ends' split
      obtain rfl := List.append_cancel_left split
      rw [ih later later']

/-- Runs are parts with some text. -/
theorem Cut.text_ne_nil {text content : Text} (lined : Text.Lined content lines)
    (cut : Cut lines segments) {first : Int}
    (member : Part.text number text ∈ Segment.parts first segments) : text ≠ [] := by
  have inked (run : List Text) (there : Segment.run run ∈ segments) : run.flatten ≠ [] := by
    cases cut.formed _ there with
    | run filled _ =>
      obtain ⟨line, inside⟩ := List.exists_mem_of_ne_nil run filled
      have whole : line ∈ lines := cut.whole ▸ List.mem_flatMap.mpr ⟨_, there, inside⟩
      intro empty
      exact lined.ne_nil line whole (List.flatten_eq_nil_iff.mp empty line inside)
  clear cut
  induction segments generalizing first with
  | nil => cases member
  | cons segment segments ih =>
    rcases List.mem_cons.mp member with same | member
    · cases segment with
      | run run =>
        cases same
        exact inked run List.mem_cons_self
      | block => cases same
    · exact ih member fun run there => inked run (List.mem_cons_of_mem segment there)

end Segments

/-- Splitting a text tiles its lines, of which there is one list. It succeeds exactly when
the lines can be cut into runs and blocks, which they can in one way only, and gives the
part that each piece is, in order, under the number of its first line; no text among the
parts is empty. It fails exactly when a block is left open, and gives the number of the
line that opens this block. -/
theorem split_tiles (content : Text) (first : Int) :
    ∃ lines, (∀ all, Text.Lined content all ↔ all = lines) ∧
      (∀ parts, split content first = .ok parts ↔
        ∃ segments, Cut lines segments ∧ parts = Segment.parts first segments) ∧
      (∀ segments segments', Cut lines segments → Cut lines segments' → segments = segments') ∧
      (∀ parts number text, split content first = .ok parts → .text number text ∈ parts → text ≠ []) ∧
      ∀ number, split content first = .error number ↔
        ∃ before, LeftOpen lines before ∧ number = first + before.length := by
  have done (parts : List Part) : split content first = .ok parts ↔
      ∃ segments, Cut (Text.lines content) segments ∧ parts = Segment.parts first segments := by
    constructor
    · intro done
      obtain ⟨segments, cut⟩ := cut_of_splitLines (List.forall_mem_nil Plain) done
      exact ⟨segments, cut, Except.ok.inj (done.symm.trans (cut.splitLines first))⟩
    · rintro ⟨segments, cut, rfl⟩
      exact cut.splitLines first
  have lined : Text.Lined content (Text.lines content) := Text.lined_lines content
  refine ⟨Text.lines content, fun all => ⟨fun also => also.unique lined, fun same => same ▸ lined⟩,
    done, fun _ _ => Cut.unique, ?_, ?_⟩
  · intro parts number text split member
    obtain ⟨segments, cut, rfl⟩ := (done parts).mp split
    exact cut.text_ne_nil lined member
  · intro number
    constructor
    · intro failed
      obtain ⟨before, leaves⟩ := leftOpen_of_splitLines (List.forall_mem_nil Plain) failed
      exact ⟨before, leaves, Except.error.inj (failed.symm.trans (leaves.splitLines first))⟩
    · rintro ⟨before, leaves, rfl⟩
      exact leaves.splitLines first

example : split "a\n```x\n```\n```\nb".toList 10 = .error 13 := by cbv

end Fence
end Regen
