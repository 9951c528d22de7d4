import Regen.Document.Chunk

/-! Block trees: text, and marked blocks with what stands between their markers.
The same shape serves a parsed document and a resolved one, which differ in
what a block carries. -/
namespace Regen

/-- A tree whose blocks carry marks of some type. -/
inductive Tree (α : Type) where
  | text (content : Text)
  | block (mark : α) (body : List (Tree α))
deriving Repr

namespace Tree

mutual

def decEq {α : Type} [DecidableEq α] : (tree other : Tree α) → Decidable (tree = other)
  | .text content, .text other => decidable_of_iff (content = other) (by simp)
  | .block mark body, .block other inside =>
    match decEqAll body inside with
    | isTrue same => decidable_of_iff (mark = other) (by simp [same])
    | isFalse different => isFalse (by simp [different])
  | .text _, .block _ _ => isFalse nofun
  | .block _ _, .text _ => isFalse nofun

def decEqAll {α : Type} [DecidableEq α] : (trees others : List (Tree α)) → Decidable (trees = others)
  | [], [] => isTrue rfl
  | [], _ :: _ => isFalse nofun
  | _ :: _, [] => isFalse nofun
  | tree :: trees, other :: others =>
    match decEq tree other, decEqAll trees others with
    | isTrue same, isTrue more => isTrue (by rw [same, more])
    | isFalse different, _ => isFalse (by simp [different])
    | _, isFalse different => isFalse (by simp [different])

end

instance {α : Type} [DecidableEq α] : DecidableEq (Tree α) := decEq

end Tree

/-- A start marker and the raw text of the stop marker that closes it. -/
structure Block where
  start : Start
  footer : Text
deriving DecidableEq, Repr

/-- A node of a parsed document. -/
abbrev Node := Tree Block

namespace Tree

mutual

/-- The number of blocks and texts of a tree. -/
def size {α : Type} : Tree α → Nat
  | .text _ => 1
  | .block _ body => 1 + sizeAll body

/-- The number of blocks and texts of several trees. -/
def sizeAll {α : Type} : List (Tree α) → Nat
  | [] => 0
  | tree :: more => size tree + sizeAll more

end

theorem sizeAll_append {α : Type} (trees others : List (Tree α)) :
    sizeAll (trees ++ others) = sizeAll trees + sizeAll others := by
  induction trees with
  | nil => simp [sizeAll]
  | cons tree trees ih => simp [sizeAll, ih, Nat.add_assoc]

theorem sizeAll_reverse {α : Type} (trees : List (Tree α)) : sizeAll trees.reverse = sizeAll trees := by
  induction trees with
  | nil => rfl
  | cons tree trees ih => simp [sizeAll_append, sizeAll, ih, Nat.add_comm]

/-- Trees put on a stack at one depth, the last of them on top. -/
def stacked {α : Type} (depth : Nat) (trees : List (Tree α)) : List (Nat × Tree α) :=
  trees.reverse.map (depth, ·)

theorem map_snd_stacked {α : Type} (depth : Nat) (trees : List (Tree α)) :
    (stacked depth trees).map Prod.snd = trees.reverse := by
  simp [stacked, Function.comp_def]

/-- What is best once the trees on a stack are visited, each at its depth. A block
that lies deeper than any before makes its root `mark` the best, and the trees
inside it go on top of the stack. -/
def walk {α : Type} (mark : α) (best : Option α × Nat) : List (Nat × Tree α) → Option α × Nat
  | [] => best
  | (_, .text _) :: more => walk mark best more
  | (depth, .block _ body) :: more =>
    walk mark (if best.2 < depth then (some mark, depth) else best) (stacked (depth + 1) body ++ more)
termination_by pending => sizeAll (pending.map Prod.snd)
decreasing_by
  · simp only [List.map_cons, sizeAll, size]; omega
  · simp only [List.map_append, map_snd_stacked, List.map_cons, sizeAll_append, sizeAll_reverse,
      sizeAll, size]
    omega

/-- The mark of the first top-level block that holds the deepest nesting, and
how many blocks deep it is; `best` is what earlier trees gave. -/
def deepestFrom {α : Type} (best : Option α × Nat) : List (Tree α) → Option α × Nat
  | [] => best
  | .text _ :: more => deepestFrom best more
  | .block mark body :: more => deepestFrom (walk mark best [(1, .block mark body)]) more

/-- The top-level block that holds the deepest nesting, the first of several,
and its depth; no block and zero when there are only texts. -/
def deepest {α : Type} (trees : List (Tree α)) : Option α × Nat :=
  deepestFrom (none, 0) trees

end Tree

namespace Node

mutual

/-- The text a node was parsed from. -/
def source : Node → Text
  | .text content => content
  | .block mark body => mark.start.raw ++ sourceAll body ++ mark.footer

/-- The text several nodes were parsed from. -/
def sourceAll : List Node → Text
  | [] => []
  | node :: more => source node ++ sourceAll more

end

end Node
end Regen
