import Regen.Proofs.BracketMachine
import Regen.Proofs.Forests

/-! The deepest nesting, looked for twice. Over the chunks of a document the open
blocks are counted, and over the forest they spell its blocks are visited from a
stack, the last one in first. Both come to the height of the forest and to the
first top-level block that is as high, because a block takes the place of those
before it only where it is higher. -/
namespace Regen

namespace Tree
variable {α : Type}

/-- The first block of the greatest height and that height; `best` is what stands
before the forest. -/
def highestFrom (best : Option α × Nat) : List (Tree α) → Option α × Nat
  | [] => best
  | .text _ :: more => highestFrom best more
  | .block mark body :: more =>
    highestFrom (if best.2 < heightAll body + 1 then (some mark, heightAll body + 1) else best) more

/-- How deep a tree at some depth goes, a text not at all. -/
def depthUnder (depth : Nat) : Tree α → Nat
  | .text _ => 0
  | .block _ body => depth + heightAll body

/-- How deep the trees on a stack go. -/
def reach : List (Nat × Tree α) → Nat
  | [] => 0
  | (depth, tree) :: more => max (tree.depthUnder depth) (reach more)

section Walk
variable {depth : Nat} {mark : α} {tree : Tree α} {body before after trees : List (Tree α)}

theorem reach_append (first second : List (Nat × Tree α)) :
    reach (first ++ second) = max (reach first) (reach second) := by
  induction first with
  | nil => simp [reach]
  | cons pending first ih => simp [reach, ih, Nat.max_assoc]

/-- The trees inside a block go as deep as the block is high. -/
theorem reach_stacked (depth : Nat) (body : List (Tree α)) :
    max depth (reach (stacked (depth + 1) body)) = depth + heightAll body := by
  induction body with
  | nil => simp [stacked, reach]
  | cons tree body ih =>
    have top : stacked (depth + 1) (tree :: body) = stacked (depth + 1) body ++ [(depth + 1, tree)] := by
      simp [stacked]
    rw [top, reach_append, reach, reach]
    cases tree with
    | text content =>
      rw [depthUnder, heightAll_text]
      omega
    | block mark inner =>
      rw [depthUnder, heightAll_block]
      omega

/-- A walk finds its root once it goes deeper than the best so far, whatever the
order in which the stack is emptied. -/
theorem walk_eq (mark : α) (best : Option α × Nat) (pending : List (Nat × Tree α)) :
    walk mark best pending = if best.2 < reach pending then (some mark, reach pending) else best := by
  fun_induction walk mark best pending with
  | case1 best => simp [reach]
  | case2 best depth content more ih => simpa [reach, depthUnder] using ih
  | case3 best depth inside body more ih =>
    have inner := reach_stacked depth body
    have whole : reach ((depth, block inside body) :: more) =
        max depth (reach (stacked (depth + 1) body ++ more)) := by
      rw [reach, depthUnder, reach_append]
      omega
    simp only [dite_eq_ite] at ih
    rw [ih, whole]
    by_cases deeper : best.2 < depth
    · by_cases within : depth < reach (stacked (depth + 1) body ++ more)
      · rw [if_pos deeper, if_pos within, if_pos (by omega), Nat.max_eq_right (Nat.le_of_lt within)]
      · rw [if_pos deeper, if_neg within, if_pos (by omega), Nat.max_eq_left (Nat.le_of_not_lt within)]
    · rw [if_neg deeper]
      by_cases within : best.2 < reach (stacked (depth + 1) body ++ more)
      · rw [if_pos within, if_pos (by omega), Nat.max_eq_right (by omega)]
      · rw [if_neg within, if_neg (by omega)]

theorem deepestFrom_eq (best : Option α × Nat) (trees : List (Tree α)) :
    deepestFrom best trees = highestFrom best trees := by
  fun_induction deepestFrom best trees with
  | case1 best => rfl
  | case2 best content more ih => exact ih
  | case3 best mark body more ih =>
    rw [ih, walk_eq, highestFrom, reach, reach, depthUnder, Nat.max_zero, Nat.add_comm 1]

end Walk

section Highest
variable {mark : α} {body trees : List (Tree α)}

theorem depth_highestFrom (best : Option α × Nat) (trees : List (Tree α)) :
    (highestFrom best trees).2 = max best.2 (heightAll trees) := by
  fun_induction highestFrom best trees with
  | case1 best => simp
  | case2 best content more ih => simpa using ih
  | case3 best mark body more ih =>
    rw [ih, heightAll_block]
    by_cases higher : best.2 < heightAll body + 1
    · rw [if_pos higher]
      omega
    · rw [if_neg higher]
      omega

/-- The best of a forest is what came before it, or the first of its blocks that is
higher than that and as high as any. -/
theorem highestFrom_cases (best : Option α × Nat) (trees : List (Tree α)) :
    (heightAll trees ≤ best.2 ∧ highestFrom best trees = best) ∨
      ∃ before mark body after, trees = before ++ .block mark body :: after ∧
        highestFrom best trees = (some mark, heightAll body + 1) ∧ best.2 < heightAll body + 1 ∧
        heightAll before < heightAll body + 1 ∧ heightAll after ≤ heightAll body + 1 := by
  fun_induction highestFrom best trees with
  | case1 best => exact .inl ⟨Nat.zero_le _, rfl⟩
  | case2 best content more ih =>
    rcases ih with ⟨low, same⟩ | ⟨before, mark, body, after, rfl, same, high, first, last⟩
    · exact .inl ⟨by simpa using low, same⟩
    · exact .inr ⟨.text content :: before, mark, body, after, rfl, same, high, by simpa using first, last⟩
  | case3 best mark body more ih =>
    by_cases higher : best.2 < heightAll body + 1
    · rw [if_pos higher] at ih ⊢
      rcases ih with ⟨low, same⟩ | ⟨before, mark', body', after, rfl, same, high, first, last⟩
      · exact .inr ⟨[], mark, body, more, rfl, same, higher, Nat.succ_pos _, low⟩
      · refine .inr ⟨.block mark body :: before, mark', body', after, rfl, same, ?_, ?_, last⟩
        · exact Nat.lt_trans higher high
        · rw [heightAll_block]
          exact Nat.max_lt.mpr ⟨high, first⟩
    · rw [if_neg higher] at ih ⊢
      rcases ih with ⟨low, same⟩ | ⟨before, mark', body', after, rfl, same, high, first, last⟩
      · refine .inl ⟨?_, same⟩
        rw [heightAll_block]
        exact Nat.max_le.mpr ⟨Nat.le_of_not_lt higher, low⟩
      · refine .inr ⟨.block mark body :: before, mark', body', after, rfl, same, high, ?_, last⟩
        rw [heightAll_block]
        omega

theorem heightAll_eq_zero_iff : heightAll trees = 0 ↔ ∀ mark body, Tree.block mark body ∉ trees := by
  induction trees with
  | nil => simp
  | cons tree trees ih =>
    cases tree with
    | text content => simpa using ih
    | block mark body =>
      have high : heightAll (.block mark body :: trees) ≠ 0 := by
        rw [heightAll_block]
        omega
      exact iff_of_false high fun none => none mark body List.mem_cons_self

end Highest
end Tree

namespace Nesting
open Regen.Bracket Regen.Tree

/-- The count once as many blocks as `depth` were open under the root. -/
def raise (nesting : Nesting) (depth : Nat) : Nesting :=
  if nesting.deepest < depth then { nesting with best := nesting.root, deepest := depth } else nesting

/-- The count with one more block open, before it is compared with the best. -/
def enter (nesting : Nesting) (start : Start) : Nesting :=
  { nesting with
    root := if nesting.depth = 0 then some start else nesting.root
    depth := nesting.depth + 1 }

/-- The count with the innermost block closed. -/
def leave (nesting : Nesting) : Nesting := { nesting with depth := nesting.depth - 1 }

section Count
variable {nesting : Nesting} {chunks inner : List Chunk} {nodes body : List Node} {start : Start}
  {stop : Stop} {depth : Nat}

@[simp] theorem depth_raise : (nesting.raise depth).depth = nesting.depth := by
  unfold raise
  split <;> rfl

@[simp] theorem root_raise : (nesting.raise depth).root = nesting.root := by
  unfold raise
  split <;> rfl

@[simp] theorem deepest_raise : (nesting.raise depth).deepest = max nesting.deepest depth := by
  unfold raise
  by_cases deeper : nesting.deepest < depth
  · rw [if_pos deeper, Nat.max_eq_right (Nat.le_of_lt deeper)]
  · rw [if_neg deeper, Nat.max_eq_left (Nat.le_of_not_lt deeper)]

theorem raise_of_le (known : depth ≤ nesting.deepest) : nesting.raise depth = nesting :=
  if_neg (Nat.not_lt_of_le known)

theorem raise_raise (more : Nat) : (nesting.raise depth).raise more = nesting.raise (max depth more) := by
  unfold raise
  by_cases first : nesting.deepest < depth
  · by_cases second : depth < more
    · rw [if_pos first, if_pos second, if_pos (by omega), Nat.max_eq_right (Nat.le_of_lt second)]
    · rw [if_pos first, if_neg second, if_pos (by omega), Nat.max_eq_left (Nat.le_of_not_lt second)]
  · rw [if_neg first]
    by_cases second : nesting.deepest < more
    · rw [if_pos second, if_pos (by omega), Nat.max_eq_right (by omega)]
    · rw [if_neg second, if_neg (by omega)]

theorem leave_raise : (nesting.raise depth).leave = nesting.leave.raise depth := by
  unfold raise leave
  split <;> rfl

theorem step_start (nesting : Nesting) (start : Start) :
    nesting.step (.start start) = (nesting.enter start).raise (nesting.depth + 1) := by
  unfold step raise enter
  rfl

/-- A block raises the count by its height, given that what is inside does so. -/
theorem foldl_block (nesting : Nesting) (start : Start) (stop : Stop)
    (within : ∀ nesting : Nesting, 0 < nesting.depth → nesting.depth ≤ nesting.deepest →
      inner.foldl step nesting = nesting.raise (nesting.depth + heightAll body)) :
    (.start start :: (inner ++ [.stop stop])).foldl step nesting =
      (nesting.enter start).leave.raise (nesting.depth + (heightAll body + 1)) := by
  have depth : ((nesting.enter start).raise (nesting.depth + 1)).depth = nesting.depth + 1 :=
    depth_raise
  have known : nesting.depth + 1 ≤ ((nesting.enter start).raise (nesting.depth + 1)).deepest := by
    rw [deepest_raise]
    exact Nat.le_max_right ..
  rw [List.foldl_cons, List.foldl_append, step_start, within _ (by omega) (by rwa [depth]),
    raise_raise, depth]
  change leave _ = _
  rw [leave_raise]
  congr 1
  omega

theorem enter_leave_of_inside (start : Start) (inside : 0 < nesting.depth) :
    (nesting.enter start).leave = nesting := by
  simp [enter, leave, Nat.ne_of_gt inside]

/-- Inside a block the count is raised by the height of the forest that is read. -/
theorem foldl_inside (spells : Spells chunks nodes) (nesting : Nesting) (inside : 0 < nesting.depth)
    (known : nesting.depth ≤ nesting.deepest) :
    chunks.foldl step nesting = nesting.raise (nesting.depth + heightAll nodes) := by
  induction spells generalizing nesting with
  | nil => exact (raise_of_le known).symm
  | text _ ih => simpa [step] using ih nesting inside known
  | @block start stop inner more body nodes same _ _ within after =>
    have first := foldl_block nesting start stop (within · · ·)
    rw [enter_leave_of_inside start inside] at first
    have raised : (nesting.raise (nesting.depth + (heightAll body + 1))).depth ≤
        (nesting.raise (nesting.depth + (heightAll body + 1))).deepest := by
      rw [depth_raise, deepest_raise]
      exact Nat.le_trans known (Nat.le_max_left ..)
    rw [List.append_cons, ← List.cons_append, List.foldl_append, first, after _ (by simpa) raised,
      raise_raise, depth_raise, heightAll_block]
    congr 1
    omega

/-- Outside all blocks the count finds what the search of the forest finds. -/
theorem foldl_outside (spells : Spells chunks nodes) (nesting : Nesting) (best : Option Block × Nat)
    (outside : nesting.depth = 0) (root : nesting.best = best.1.map Block.start)
    (deepest : nesting.deepest = best.2) :
    (chunks.foldl step nesting).best = (highestFrom best nodes).1.map Block.start ∧
      (chunks.foldl step nesting).deepest = (highestFrom best nodes).2 := by
  induction spells generalizing nesting best with
  | nil => exact ⟨root, deepest⟩
  | text _ ih => exact ih nesting best outside root deepest
  | @block start stop inner more body nodes same spells _ _ after =>
    have first := foldl_block nesting start stop (foldl_inside spells)
    rw [List.append_cons, ← List.cons_append, List.foldl_append, first, highestFrom]
    refine after _ _ (by simp [enter, leave, outside]) ?_ ?_
    all_goals
      rw [outside, Nat.zero_add, raise]
      by_cases higher : best.2 < heightAll body + 1 <;> simp [enter, leave, outside, root, deepest, higher]

end Count
end Nesting

namespace Document
open Regen.Bracket Regen.Tree
open Nesting (foldl_outside)

/-- However deep blocks may be nested, the count over chunks that are matched and the
search of the forest they are matched to find the same depth and the same block: the
depth is the height of the forest, and the block the first on the top level that is
as high. Where there is no block both find none, at depth zero. -/
theorem nesting_found_alike {room : Nat} {chunks : List Chunk} {siblings : Siblings chunks.length}
    (matched : matchBlocks room none chunks = .ok siblings) :
    (Nesting.ofChunks chunks).best = (Tree.deepest siblings.nodes).1.map Block.start ∧
    (Nesting.ofChunks chunks).deepest = (Tree.deepest siblings.nodes).2 ∧
    (Tree.deepest siblings.nodes).2 = heightAll siblings.nodes ∧
    ((∀ block body, Tree.block block body ∉ siblings.nodes) →
      Tree.deepest siblings.nodes = (none, 0)) ∧
    ((∃ block body, Tree.block block body ∈ siblings.nodes) →
      ∃ block before body after first inner stop last,
        (Tree.deepest siblings.nodes).1 = some block ∧
        siblings.nodes = before ++ .block block body :: after ∧
        height (.block block body) = heightAll siblings.nodes ∧
        heightAll before < heightAll siblings.nodes ∧
        chunks = first ++ .start block.start :: (inner ++ .stop stop :: last) ∧
        Spells first before ∧ Spells inner body ∧ Spells last after) := by
  have spells := spells_of_matchBlocks matched
  have deepest : Tree.deepest siblings.nodes = highestFrom (none, 0) siblings.nodes := deepestFrom_eq _ _
  have depth : (Tree.deepest siblings.nodes).2 = heightAll siblings.nodes := by
    rw [deepest, depth_highestFrom, Nat.zero_max]
  obtain ⟨best, count⟩ := foldl_outside spells Nesting.none (none, 0) rfl rfl rfl
  rw [← deepest] at best count
  refine ⟨best, count, depth, ?_, ?_⟩
  · intro flat
    rcases highestFrom_cases (none, 0) siblings.nodes with ⟨-, same⟩ | ⟨before, block, body, after, whole, -⟩
    · exact deepest.trans same
    · exact absurd (whole ▸ List.mem_append_cons_self) (flat block body)
  · rintro ⟨block, body, member⟩
    rcases highestFrom_cases (none, 0) siblings.nodes with ⟨low, -⟩ | found
    · exact absurd member (heightAll_eq_zero_iff.mp (Nat.le_zero.mp low) block body)
    · obtain ⟨before, block, body, after, whole, same, -, front, -⟩ := found
      obtain ⟨first, inner, stop, last, split, -, -, outer, inside, later⟩ := spells.split whole
      have high : heightAll body + 1 = heightAll siblings.nodes := by
        rw [← depth, deepest, same]
      refine ⟨block, before, body, after, first, inner, stop, last, ?_, whole, high, ?_, split, outer, inside,
        later⟩
      · rw [deepest, same]
      · rwa [← high]

def innerStop : Stop := ⟨⟨"rdmx", "inner"⟩, "<!-- rdmx /:inner -->".toList, ⟨1, 31⟩⟩

/-- Two blocks of the same height next to each other. -/
def tiedChunks : List Chunk :=
  [.start outerStart, .start innerStart, .stop innerStop, .stop outerStop,
    .start innerStart, .start outerStart, .stop outerStop, .stop innerStop]

def tiedForest : List Node :=
  [.block ⟨outerStart, outerStop.raw⟩ [.block ⟨innerStart, innerStop.raw⟩ []],
    .block ⟨innerStart, innerStop.raw⟩ [.block ⟨outerStart, outerStop.raw⟩ []]]

/-- Of two blocks of the same height both find the first. -/
theorem nesting_found_alike_tied : ∃ siblings, matchBlocks 2 none tiedChunks = .ok siblings ∧
    siblings.nodes = tiedForest ∧ (Nesting.ofChunks tiedChunks).best = some outerStart ∧
    (Nesting.ofChunks tiedChunks).deepest = 2 ∧
    (Tree.deepest siblings.nodes).1.map Block.start = some outerStart ∧
    (Tree.deepest siblings.nodes).2 = 2 := by
  have read : (matchBlocks 2 none tiedChunks).toOption.map Siblings.nodes = some tiedForest := by
    decide +kernel
  have best : (Nesting.ofChunks tiedChunks).best = some outerStart := by decide
  have count : (Nesting.ofChunks tiedChunks).deepest = 2 := by decide
  cases matched : matchBlocks 2 none tiedChunks with
  | error fault => simp [matched, Except.toOption] at read
  | ok siblings =>
    rw [matched] at read
    obtain ⟨sameBlock, sameDepth, -⟩ := nesting_found_alike matched
    refine ⟨siblings, rfl, Option.some.inj read, best, count, ?_, ?_⟩
    · rw [← sameBlock, best]
    · rw [← sameDepth, count]

end Document
end Regen
