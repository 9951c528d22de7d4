import Mathlib.Data.List.Induction
import Regen.Journal
import Regen.Proofs.DeepestNesting

/-! Chunks nested too deep. Matching gives up at the first block for which there is no
room, and what is reported then is found by a count over all chunks, in which a stop
closes a block whatever its name. The two agree on the chunks that matching has read,
where every stop has the name of the block it closes; so the depth that the count finds
is beyond the limit, however the chunks go on. -/
namespace Regen

namespace Bracket
open Except

/-- What ends the nodes that matching reads, without the nodes. -/
def ending (room : Nat) (expected : Option Header.ActionName) (chunks : List Chunk) :
    Except MatchFault (Option (Stop × List Chunk)) :=
  (matchBlocks room expected chunks).map Siblings.ended

section Ending
variable {room limit : Nat} {expected : Option Header.ActionName} {chunks more : List Chunk}
  {nodes : List Node} {start : Start} {stop : Stop} {state : State} {file : String}

@[simp] theorem ending_text (content : Text) (loc : Position) :
    ending room expected (.text content loc :: more) = ending room expected more := by
  unfold ending
  rw [matchBlocks]
  cases matchBlocks room expected more <;> rfl

@[simp] theorem ending_start_noRoom :
    ending 0 expected (.start start :: more) = .error .tooDeep := by
  unfold ending
  rw [matchBlocks]
  rfl

/-- A block is passed when what is inside it ends at a stop. -/
theorem ending_start {rest : List Chunk}
    (inside : ending room (some start.name) more = .ok (some (stop, rest))) :
    ending (room + 1) expected (.start start :: more) = ending (room + 1) expected rest := by
  unfold ending at inside ⊢
  obtain ⟨⟨body, ended, shorter⟩, matched, rfl⟩ := map_eq_ok_iff.mp inside
  rw [matchBlocks, matched]
  dsimp only
  cases matchBlocks (room + 1) expected rest <;> rfl

theorem ending_start_error {fault : MatchFault} (inside : ending room (some start.name) more = .error fault) :
    ending (room + 1) expected (.start start :: more) = .error fault := by
  unfold ending at inside ⊢
  rw [matchBlocks, map_eq_error_iff.mp inside]
  rfl

theorem ending_stop (same : stop.name = start.name) :
    ending room (some start.name) (.stop stop :: more) = .ok (some (stop, more)) := by
  unfold ending
  rw [matchBlocks, if_pos (by rw [same])]
  rfl

/-- Chunks that spell a forest leave the outcome to those after them, unless the forest
is too high. -/
theorem ending_of_spells (spells : Spells chunks nodes) (room : Nat) (expected : Option Header.ActionName)
    (more : List Chunk) :
    ending room expected (chunks ++ more) = .error .tooDeep ∨
      ending room expected (chunks ++ more) = ending room expected more := by
  induction spells generalizing room expected more with
  | nil => exact .inr rfl
  | text _ ih => simpa using ih room expected more
  | @block start stop inner later body nodes same _ _ within after =>
    rw [List.cons_append, List.append_assoc, List.cons_append]
    cases room with
    | zero => exact .inl ending_start_noRoom
    | succ room =>
      rcases within room (some start.name) (.stop stop :: (later ++ more)) with deep | passed
      · exact .inl (ending_start_error deep)
      · rw [ending_start (passed.trans (ending_stop same))]
        exact after (room + 1) expected more

/-- Chunks that lead to a state leave the outcome to those after them as well, as far as it
is a fault, with as much room as the open blocks leave. -/
theorem ending_of_leads (leads : Leads chunks state) (limit : Nat) (more : List Chunk) :
    ending limit none (chunks ++ more) = .error .tooDeep ∨
      state.frames.length ≤ limit ∧
        ∀ fault, ending (limit - state.frames.length) state.innermost? more = .error fault →
          ending limit none (chunks ++ more) = .error fault := by
  -- On the blocks that are open, outermost first: each takes one from the room that those around it leave.
  induction leads generalizing more with
  | @outside chunks nodes spells =>
    rcases ending_of_spells spells limit none more with deep | passed
    · exact .inl deep
    · exact .inr ⟨Nat.zero_le _, fun fault failed => passed.trans failed⟩
  | @inside outer inner start before nodes frames _ spells ih =>
    rw [List.append_assoc, List.cons_append]
    rcases ih (.start start :: (inner ++ more)) with deep | ⟨fits, fails⟩
    · exact .inl deep
    · cases left : limit - frames.length with
      | zero =>
        refine .inl (fails _ ?_)
        rw [left]
        exact ending_start_noRoom
      | succ room =>
        simp only [left] at fails
        rcases ending_of_spells spells room (some start.name) more with deep | passed
        · exact .inl (fails _ (ending_start_error deep))
        · refine .inr ⟨by simp only [List.length_cons]; omega, fun fault failed => fails _ ?_⟩
          have less : limit - (frames.length + 1) = room := by omega
          rw [List.length_cons, less] at failed
          exact ending_start_error (passed.trans failed)

end Ending

section Peak
variable {file : String} {limit : Nat} {state next : State} {chunks : List Chunk} {chunk : Chunk}

/-- A depth that the machine gets beyond, it gets beyond somewhere before it stops. -/
theorem exists_front_of_lt_peak (deep : limit < peak file state chunks) :
    ∃ front rest next, chunks = front ++ rest ∧ run file state front = .ok next ∧
      limit < next.frames.length := by
  induction chunks generalizing state with
  | nil => exact ⟨[], [], state, rfl, rfl, deep⟩
  | cons chunk more ih =>
    by_cases here : limit < state.frames.length
    · exact ⟨[], chunk :: more, state, rfl, rfl, here⟩
    · unfold peak at deep
      cases stepped : step file state chunk with
      | error fault =>
        rw [stepped] at deep
        exact absurd deep here
      | ok next =>
        simp only [stepped] at deep
        have later : limit < peak file next more := by omega
        obtain ⟨front, rest, last, rfl, ran, deeper⟩ := ih later
        exact ⟨chunk :: front, rest, last, rfl, by simp only [run, stepped, ran], deeper⟩

/-- Matching gives up exactly where the machine has more blocks open at a time than may be. -/
theorem tooDeep_iff_lt_peak (file : String) (limit : Nat) (chunks : List Chunk) :
    matchBlocks limit none chunks = .error .tooDeep ↔ limit < peak file .initial chunks := by
  constructor
  · intro gaveUp
    have agrees := matchBlocks_agrees file limit none chunks .initial rfl
    rw [gaveUp] at agrees
    exact agrees
  · intro deep
    obtain ⟨front, rest, state, rfl, ran, deeper⟩ := exists_front_of_lt_peak deep
    have leads : Leads front state := (Leads.outside .nil).run ran
    rcases ending_of_leads leads limit rest with gaveUp | ⟨within, -⟩
    · exact map_eq_error_iff.mp gaveUp
    · omega

end Peak
end Bracket

namespace Nesting
open Regen.Bracket (run)

/-- The number of blocks open after one more chunk. A stop closes one whatever its name,
unless none is open. -/
def count (depth : Nat) : Chunk → Nat
  | .text _ _ => depth
  | .start _ => depth + 1
  | .stop _ => depth - 1

/-- The number of blocks open after chunks. -/
def depthAfter (chunks : List Chunk) : Nat := chunks.foldl count 0

/-- `root` begins where no block is open, and at no place inside are all blocks closed. -/
structure Under (before : List Chunk) (root : Start) (inside : List Chunk) : Prop where
  outside : depthAfter before = 0
  within : ∀ part, part <+: inside → 0 < depthAfter (before ++ .start root :: part)

/-- The start is that of the outermost block open after `chunks`. -/
def Outermost (chunks : List Chunk) (start : Option Start) : Prop :=
  ∃ before root inside, chunks = before ++ .start root :: inside ∧ Under before root inside ∧
    start = some root

/-- No place in `chunks` is deeper than `depth`, and this depth is reached for the first
time inside `root`. -/
structure Deepest (chunks before : List Chunk) (root : Start) (inside : List Chunk) (depth : Nat) :
    Prop where
  place : before ++ .start root :: inside <+: chunks
  under : Under before root inside
  reached : depthAfter (before ++ .start root :: inside) = depth
  first : ∀ part, part <+: before ++ .start root :: inside → part ≠ before ++ .start root :: inside →
    depthAfter part < depth
  greatest : ∀ part, part <+: chunks → depthAfter part ≤ depth

/-- What the count over chunks says about them. -/
structure Tells (chunks : List Chunk) (nesting : Nesting) : Prop where
  depth_eq : nesting.depth = depthAfter chunks
  root : 0 < nesting.depth → Outermost chunks nesting.root
  greatest : ∀ part, part <+: chunks → depthAfter part ≤ nesting.deepest
  best : 0 < nesting.deepest → ∃ before root inside, nesting.best = some root ∧
    Deepest chunks before root inside nesting.deepest

section Count
variable {chunks before inside : List Chunk} {chunk : Chunk} {root start : Start} {depth : Nat}
  {nesting : Nesting}

theorem depthAfter_concat (chunks : List Chunk) (chunk : Chunk) :
    depthAfter (chunks ++ [chunk]) = count (depthAfter chunks) chunk := by
  simp [depthAfter]

/-- Places in chunks with one more at the end. -/
theorem forall_prefix_concat_iff {holds : List Chunk → Prop} :
    (∀ part, part <+: chunks ++ [chunk] → holds part) ↔
      holds (chunks ++ [chunk]) ∧ ∀ part, part <+: chunks → holds part := by
  simp only [List.prefix_concat_iff, or_imp, forall_and, forall_eq]

theorem Under.concat (under : Under before root inside)
    (opened : 0 < depthAfter (before ++ .start root :: inside ++ [chunk])) :
    Under before root (inside ++ [chunk]) where
  outside := under.outside
  within := forall_prefix_concat_iff.mpr ⟨by simpa using opened, under.within⟩

/-- The greatest depth stays where it is while no greater one is reached. -/
theorem Deepest.concat (deepest : Deepest chunks before root inside depth)
    (low : depthAfter (chunks ++ [chunk]) ≤ depth) :
    Deepest (chunks ++ [chunk]) before root inside depth where
  place := deepest.place.trans (List.prefix_append ..)
  under := deepest.under
  reached := deepest.reached
  first := deepest.first
  greatest := forall_prefix_concat_iff.mpr ⟨low, deepest.greatest⟩

/-- A place deeper than all before it is the deepest. -/
theorem deepest_of_deeper (under : Under before root inside)
    (whole : chunks ++ [chunk] = before ++ .start root :: inside)
    (deeper : ∀ part, part <+: chunks → depthAfter part < depthAfter (chunks ++ [chunk])) :
    Deepest (chunks ++ [chunk]) before root inside (depthAfter (chunks ++ [chunk])) where
  place := whole ▸ List.prefix_refl _
  under := under
  reached := by rw [whole]
  first := by
    rw [← whole]
    intro part front other
    exact deeper part ((List.prefix_concat_iff.mp front).resolve_left other)
  greatest := forall_prefix_concat_iff.mpr
    ⟨Nat.le_refl _, fun part front => Nat.le_of_lt (deeper part front)⟩

theorem Outermost.concat {root : Option Start} (outermost : Outermost chunks root)
    (opened : 0 < depthAfter (chunks ++ [chunk])) : Outermost (chunks ++ [chunk]) root := by
  obtain ⟨before, root, inside, rfl, under, same⟩ := outermost
  exact ⟨before, root, inside ++ [chunk], by simp, under.concat opened, same⟩

theorem outermost_start (start : Start) (outside : depthAfter chunks = 0) :
    Outermost (chunks ++ [.start start]) (some start) := by
  refine ⟨chunks, start, [], rfl, ⟨outside, ?_⟩, rfl⟩
  rintro part front
  rw [List.prefix_nil.mp front, depthAfter_concat]
  exact Nat.succ_pos _

theorem tells_none : Tells [] none where
  depth_eq := rfl
  root inside := absurd inside (Nat.lt_irrefl 0)
  greatest := by
    rintro part front
    rw [List.prefix_nil.mp front]
    exact Nat.le_refl 0
  best deep := absurd deep (Nat.lt_irrefl 0)

/-- A chunk that leads no deeper leaves the best as it is. -/
theorem Tells.keeps_best {next : Nesting} (tells : Tells chunks nesting)
    (kept : next.best = nesting.best ∧ next.deepest = nesting.deepest)
    (depth_eq : next.depth = depthAfter (chunks ++ [chunk])) (low : next.depth ≤ nesting.deepest)
    (root : 0 < next.depth → Outermost (chunks ++ [chunk]) next.root) :
    Tells (chunks ++ [chunk]) next := by
  have low : depthAfter (chunks ++ [chunk]) ≤ nesting.deepest := depth_eq ▸ low
  refine ⟨depth_eq, root, ?_, ?_⟩
  · rw [kept.2]
    exact forall_prefix_concat_iff.mpr ⟨low, tells.greatest⟩
  · rw [kept.1, kept.2]
    intro deep
    obtain ⟨before, root, inside, same, deepest⟩ := tells.best deep
    exact ⟨before, root, inside, same, deepest.concat low⟩

theorem Tells.depth_le (tells : Tells chunks nesting) : nesting.depth ≤ nesting.deepest :=
  tells.depth_eq ▸ tells.greatest chunks (List.prefix_refl _)

theorem Tells.outermost_enter (tells : Tells chunks nesting) (start : Start) :
    Outermost (chunks ++ [.start start]) (nesting.enter start).root := by
  by_cases outside : nesting.depth = 0
  · rw [enter, if_pos outside]
    exact outermost_start start (tells.depth_eq.symm.trans outside)
  · rw [enter, if_neg outside]
    refine (tells.root (Nat.pos_of_ne_zero outside)).concat ?_
    rw [depthAfter_concat]
    exact Nat.succ_pos _

/-- A start that leads deeper than any place before makes its root the best. -/
theorem Tells.enter_deeper (tells : Tells chunks nesting) (start : Start)
    (deeper : nesting.deepest < nesting.depth + 1) :
    Tells (chunks ++ [.start start]) ((nesting.enter start).raise (nesting.depth + 1)) := by
  obtain ⟨before, root, inside, whole, under, same⟩ := tells.outermost_enter start
  have depth : depthAfter (chunks ++ [.start start]) = nesting.depth + 1 := by
    rw [depthAfter_concat, ← tells.depth_eq, count]
  have above : ∀ part, part <+: chunks → depthAfter part < depthAfter (chunks ++ [.start start]) := by
    intro part front
    rw [depth]
    exact Nat.lt_of_le_of_lt (tells.greatest part front) deeper
  have deepest := deepest_of_deeper under whole above
  rw [depth] at deepest
  have raised : (nesting.enter start).raise (nesting.depth + 1) =
      { nesting.enter start with best := (nesting.enter start).root, deepest := nesting.depth + 1 } :=
    if_pos deeper
  rw [raised]
  exact ⟨depth.symm, fun _ => tells.outermost_enter start, deepest.greatest,
    fun _ => ⟨before, root, inside, same, deepest⟩⟩

/-- What the count says stays true with one more chunk. -/
theorem Tells.step (tells : Tells chunks nesting) (chunk : Chunk) :
    Tells (chunks ++ [chunk]) (nesting.step chunk) := by
  have depth : count nesting.depth chunk = depthAfter (chunks ++ [chunk]) := by
    rw [depthAfter_concat, tells.depth_eq]
  cases chunk with
  | text content loc =>
    refine tells.keeps_best ⟨rfl, rfl⟩ depth tells.depth_le fun inside => ?_
    exact (tells.root inside).concat (depth ▸ inside)
  | stop stop =>
    refine tells.keeps_best ⟨rfl, rfl⟩ depth (Nat.le_trans (Nat.sub_le ..) tells.depth_le) fun inside => ?_
    exact (tells.root (Nat.lt_of_lt_of_le inside (Nat.sub_le ..))).concat (depth ▸ inside)
  | start start =>
    -- Only a start leads deeper, and only one that leads deeper than all before changes the best.
    rw [step_start]
    by_cases deeper : nesting.deepest < nesting.depth + 1
    · exact tells.enter_deeper start deeper
    · have known : nesting.depth + 1 ≤ (nesting.enter start).deepest := Nat.le_of_not_lt deeper
      rw [raise_of_le known]
      exact tells.keeps_best ⟨rfl, rfl⟩ depth known fun _ => tells.outermost_enter start

theorem tells_ofChunks (chunks : List Chunk) : Tells chunks (ofChunks chunks) := by
  induction chunks using List.reverseRecOn with
  | nil => exact tells_none
  | append_singleton chunks chunk ih =>
    rw [ofChunks, List.foldl_append]
    exact ih.step chunk

end Count

section Machine
variable {file : String} {state next : Bracket.State} {chunks : List Chunk} {chunk : Chunk}

/-- The machine opens and closes blocks as they are counted, as it stops at a stop that
closes none or another. -/
theorem count_of_step (stepped : Bracket.step file state chunk = .ok next) :
    count state.frames.length chunk = next.frames.length := by
  cases chunk with
  | text content loc =>
    cases stepped
    rfl
  | start start =>
    cases stepped
    rfl
  | stop stop =>
    obtain ⟨level, frames⟩ := state
    cases frames with
    | nil => cases stepped
    | cons frame frames =>
      simp only [Bracket.step] at stepped
      split at stepped
      · cases stepped
        rfl
      · cases stepped

theorem foldl_count_of_run (ran : run file state chunks = .ok next) :
    chunks.foldl count state.frames.length = next.frames.length := by
  induction chunks generalizing state with
  | nil =>
    cases ran
    rfl
  | cons chunk more ih =>
    simp only [run] at ran
    cases stepped : Bracket.step file state chunk with
    | error fault => simp [stepped] at ran
    | ok reached =>
      simp only [stepped] at ran
      rw [List.foldl_cons, count_of_step stepped, ih ran]

/-- The count finds no less than the machine has open at any place it gets to. -/
theorem peak_le_deepest (file : String) (chunks : List Chunk) :
    Bracket.peak file .initial chunks ≤ (ofChunks chunks).deepest := by
  apply Nat.le_of_not_lt
  intro deep
  obtain ⟨front, rest, state, rfl, ran, deeper⟩ := Bracket.exists_front_of_lt_peak deep
  have counted : depthAfter front = state.frames.length := foldl_count_of_run ran
  have found := (tells_ofChunks (front ++ rest)).greatest front (List.prefix_append ..)
  omega

end Machine
end Nesting

namespace Document
open Regen.Bracket Regen.Nesting

/-- Whatever the limit, matching gives up exactly on chunks that have more blocks open at a
time before the first stop at fault. The report is then of a start outside all blocks, with
a depth that is beyond the limit, the greatest of all, and first reached inside that start.
Any stop counts as closing a block there, so the report is as true of chunks whose blocks
are never closed, or that go on with stops that close nothing or another block. -/
theorem excessive_nesting_reported (file : String) (limit : Nat) (chunks : List Chunk) :
    (matchBlocks limit none chunks = .error .tooDeep ↔ limit < peak file .initial chunks) ∧
    (limit < peak file .initial chunks → ∃ before root inside depth,
      (Nesting.ofChunks chunks).best = some root ∧ (Nesting.ofChunks chunks).deepest = depth ∧
      limit < depth ∧ Deepest chunks before root inside depth ∧
      MatchFault.tooDeep.toFault file chunks =
        ⟨.markup (.tooDeep (.int depth)) root.raw, some root.loc, some file⟩) := by
  refine ⟨tooDeep_iff_lt_peak file limit chunks, fun deep => ?_⟩
  have beyond := Nat.lt_of_lt_of_le deep (peak_le_deepest file chunks)
  obtain ⟨before, root, inside, best, deepest⟩ := (tells_ofChunks chunks).best (Nat.zero_lt_of_lt beyond)
  refine ⟨before, root, inside, _, best, rfl, beyond, deepest, ?_⟩
  simp [MatchFault.toFault, best]

/-- A block inside another that is not the first, and then stops that close nothing or
another block. -/
def strayChunks : List Chunk :=
  [.start outerStart, .stop outerStop, .start innerStart, .start outerStart, .stop innerStop,
    .stop innerStop, .stop innerStop, .start outerStart]

/-- The block reported is the one that holds the other. -/
theorem excessive_nesting_reported_stray : 1 < peak "doc" .initial strayChunks ∧
    matchBlocks 1 none strayChunks = .error .tooDeep ∧
    ∃ before inside, Deepest strayChunks before innerStart inside 2 ∧
      MatchFault.tooDeep.toFault "doc" strayChunks =
        ⟨.markup (.tooDeep (.int 2)) innerStart.raw, some innerStart.loc, some "doc"⟩ := by
  have deep : 1 < peak "doc" .initial strayChunks := by decide
  have best : (Nesting.ofChunks strayChunks).best = some innerStart := by decide
  have count : (Nesting.ofChunks strayChunks).deepest = 2 := by decide
  obtain ⟨gaveUp, told⟩ := excessive_nesting_reported "doc" 1 strayChunks
  obtain ⟨before, root, inside, depth, found, reached, -, deepest, report⟩ := told deep
  obtain rfl : root = innerStart := Option.some.inj (found.symm.trans best)
  obtain rfl : depth = 2 := reached.symm.trans count
  exact ⟨deep, gaveUp.mpr deep, before, inside, deepest, report⟩

end Document
end Regen
