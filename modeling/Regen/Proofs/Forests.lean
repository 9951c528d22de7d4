import Regen.Document.Tree
import Regen.Proofs.HeaderPrinting

/-! Forests. What is said of them is said by induction: a forest is empty, or begins
with a text or with a block around another forest. Forests are compared through the
marks of their blocks, as two documents can hold the same blocks in other places. -/
namespace Regen

namespace Tree
variable {α β : Type}

mutual

/-- The same tree with other marks on its blocks. -/
def relabel (label : α → β) : Tree α → Tree β
  | .text content => .text content
  | .block mark body => .block (label mark) (relabelAll label body)

/-- The same trees with other marks on their blocks. -/
def relabelAll (label : α → β) : List (Tree α) → List (Tree β)
  | [] => []
  | tree :: more => relabel label tree :: relabelAll label more

end

mutual

/-- The number of blocks inside one another in a tree. -/
def height : Tree α → Nat
  | .text _ => 0
  | .block _ body => heightAll body + 1

/-- The number of blocks inside one another in any of several trees. -/
def heightAll : List (Tree α) → Nat
  | [] => 0
  | tree :: more => max (height tree) (heightAll more)

end

/-- A forest is empty, or begins with a text or with a block around a forest. -/
@[elab_as_elim]
theorem forest_induction {motive : List (Tree α) → Prop} (nil : motive [])
    (text : ∀ content more, motive more → motive (.text content :: more))
    (block : ∀ mark body more, motive body → motive more → motive (.block mark body :: more)) :
    ∀ forest, motive forest
  | [] => nil
  | .text content :: more => text content more (forest_induction nil text block more)
  | .block mark body :: more =>
    block mark body more (forest_induction nil text block body) (forest_induction nil text block more)
termination_by forest => sizeAll forest
decreasing_by all_goals simp only [sizeAll, size]; omega

section Relabel
variable {label : α → β} {content : Text} {mark : α} {body more : List (Tree α)}

@[simp] theorem relabelAll_nil : relabelAll label [] = [] := rfl

@[simp] theorem relabelAll_text :
    relabelAll label (.text content :: more) = .text content :: relabelAll label more := rfl

@[simp] theorem relabelAll_block : relabelAll label (.block mark body :: more) =
    .block (label mark) (relabelAll label body) :: relabelAll label more := rfl

@[simp] theorem heightAll_nil : heightAll ([] : List (Tree α)) = 0 := rfl

@[simp] theorem heightAll_text : heightAll (.text content :: more) = heightAll more := Nat.zero_max _

@[simp] theorem heightAll_block :
    heightAll (.block mark body :: more) = max (heightAll body + 1) (heightAll more) := rfl

end Relabel

theorem heightAll_relabelAll (label : α → β) (forest : List (Tree α)) :
    heightAll (relabelAll label forest) = heightAll forest := by
  induction forest using forest_induction with
  | nil => rfl
  | text content more ih => simp [ih]
  | block mark body more inside after => simp [inside, after]

theorem relabelAll_relabelAll {γ : Type} (label : α → β) (again : β → γ) (forest : List (Tree α)) :
    relabelAll again (relabelAll label forest) = relabelAll (again ∘ label) forest := by
  induction forest using forest_induction with
  | nil => rfl
  | text content more ih => simp [ih]
  | block mark body more inside after => simp [inside, after]

section Inversion
variable {label : α → β} {content : Text} {mark : β} {forest : List (Tree α)} {body more : List (Tree β)}

theorem eq_nil_of_relabelAll (same : relabelAll label forest = []) : forest = [] := by
  cases forest with
  | nil => rfl
  | cons => cases same

theorem eq_text_of_relabelAll (same : relabelAll label forest = .text content :: more) :
    ∃ rest, forest = .text content :: rest ∧ relabelAll label rest = more := by
  match forest, same with
  | .text content :: rest, same =>
    cases same
    exact ⟨rest, rfl, rfl⟩

theorem eq_block_of_relabelAll (same : relabelAll label forest = .block mark body :: more) :
    ∃ mark' inner rest, forest = .block mark' inner :: rest ∧ label mark' = mark ∧
      relabelAll label inner = body ∧ relabelAll label rest = more := by
  match forest, same with
  | .block mark' inner :: rest, same =>
    cases same
    exact ⟨mark', inner, rest, rfl, rfl, rfl, rfl⟩

end Inversion
end Tree

/-- What is read of a block, the positions apart: the directive, and the raw
text of both markers. -/
structure Reading where
  name : Header.ActionName
  params : List (String × Header.Literal)
  header : Text
  footer : Text

def Block.reading (block : Block) : Reading :=
  ⟨block.start.name, block.start.params.map Header.Parameter.entry, block.start.raw, block.footer⟩

/-- Blocks that are read alike have the same text. -/
theorem Node.sourceAll_of_reading {nodes nodes' : List Node}
    (same : Tree.relabelAll Block.reading nodes' = Tree.relabelAll Block.reading nodes) :
    sourceAll nodes' = sourceAll nodes := by
  induction nodes using Tree.forest_induction generalizing nodes' with
  | nil => rw [Tree.eq_nil_of_relabelAll same]
  | text content more ih =>
    obtain ⟨rest, rfl, later⟩ := Tree.eq_text_of_relabelAll same
    simp only [sourceAll, source, ih later]
  | block block body more inside after =>
    obtain ⟨block', inner, rest, rfl, alike, within, later⟩ := Tree.eq_block_of_relabelAll same
    obtain ⟨-, -, header, footer⟩ := Reading.mk.inj alike
    simp only [sourceAll, source, inside within, after later, header, footer]

end Regen
