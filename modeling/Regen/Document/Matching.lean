import Regen.Document.Tree

/-! Matching block starts with block ends. An end closes the innermost open
block, whose name it has to repeat; blocks may be nested up to a limit. -/
namespace Regen

/-- Why chunks are no forest of blocks. -/
inductive MatchFault where
  | tooDeep
  | unclosed (start : Start)
  | unopened (stop : Stop)
deriving DecidableEq, Repr

/-- Nodes read from the front of `bound` chunks, and the stop marker that ended
them with the chunks after it; `none` when the chunks ran out. -/
structure Siblings (bound : Nat) where
  nodes : List Node
  ended : Option (Stop × List Chunk)
  shorter : ∀ stop rest, ended = some (stop, rest) → rest.length < bound

/-- The siblings with one more node in front, read from more chunks. -/
def Siblings.push {bound more : Nat} (node : Node) (siblings : Siblings bound) (le : bound ≤ more) :
    Siblings more :=
  ⟨node :: siblings.nodes, siblings.ended,
    fun stop rest found => Nat.lt_of_lt_of_le (siblings.shorter stop rest found) le⟩

/-- Reads nodes up to the stop marker named `expected` or, without a name, up to
the end. At most `room` blocks may be open at a time from here on. -/
def matchBlocks (room : Nat) (expected : Option Header.ActionName) :
    (chunks : List Chunk) → Except MatchFault (Siblings chunks.length)
  | [] => .ok ⟨[], none, fun _ _ found => nomatch found⟩
  | .text content _ :: more =>
    match matchBlocks room expected more with
    | .error fault => .error fault
    | .ok siblings => .ok (siblings.push (.text content) (Nat.le_succ _))
  | .start start :: more =>
    match room with
    | 0 => .error .tooDeep
    | room + 1 =>
      match matchBlocks room (some start.name) more with
      | .error fault => .error fault
      | .ok ⟨_, none, _⟩ => .error (.unclosed start)
      | .ok ⟨body, some (stop, rest), shorter⟩ =>
        match matchBlocks (room + 1) expected rest with
        | .error fault => .error fault
        | .ok siblings =>
          .ok (siblings.push (.block ⟨start, stop.raw⟩ body)
            (Nat.le_succ_of_le (Nat.le_of_lt (shorter stop rest rfl))))
  | .stop stop :: more =>
    if expected = some stop.name then
      .ok ⟨[], some (stop, more), fun _ _ found => by cases found; exact Nat.lt_succ_self _⟩
    else .error (.unopened stop)
termination_by chunks => chunks.length
decreasing_by
  · simp
  · simp
  · have := shorter stop rest rfl
    simp only [List.length_cons]
    omega

/-- A count of the blocks open along a list of chunks. An end closes a block
whatever its name, unless none is open. -/
structure Nesting where
  /-- The outermost block open, or the last that was. -/
  root : Option Start
  depth : Nat
  /-- The root under which the greatest depth was reached first, and that depth. -/
  best : Option Start
  deepest : Nat
deriving DecidableEq, Repr

namespace Nesting

/-- Before any chunk. -/
def none : Nesting := ⟨.none, 0, .none, 0⟩

/-- After one more chunk. -/
def step (nesting : Nesting) : Chunk → Nesting
  | .text _ _ => nesting
  | .start start =>
    let root := if nesting.depth = 0 then some start else nesting.root
    let depth := nesting.depth + 1
    if nesting.deepest < depth then ⟨root, depth, root, depth⟩
    else { nesting with root := root, depth := depth }
  | .stop _ => { nesting with depth := nesting.depth - 1 }

/-- The nesting of a list of chunks. -/
def ofChunks (chunks : List Chunk) : Nesting :=
  chunks.foldl step none

end Nesting

/-- The report for chunks that are no forest. Too deep a nesting is reported at
the outermost start of the deepest block. -/
def MatchFault.toFault (file : String) (chunks : List Chunk) : MatchFault → Fault
  | .unclosed start => ⟨.markup .unclosed start.raw, some start.loc, some file⟩
  | .unopened stop => ⟨.markup .unopened stop.raw, some stop.loc, some file⟩
  | .tooDeep =>
    let nesting := Nesting.ofChunks chunks
    ⟨.markup (.tooDeep (.int nesting.deepest)) ((nesting.best.map Start.raw).getD []),
      nesting.best.map Start.loc, some file⟩

end Regen
