import Regen.Text.Cut

/-! Positions in a document: lines and columns count from one, and columns count
code points. A carriage return before a line feed is part of that line break;
alone it is a character like any other. A text may be read as if it stood
anywhere, so positions are any two integers. -/
namespace Regen

structure Position where
  line : Int
  col : Int
deriving DecidableEq, Repr

namespace Position

/-- Where a document begins. -/
def start : Position := ⟨1, 1⟩

/-- The position of what follows `text`. -/
def advance : Position → Text → Position
  | p, [] => p
  | p, '\r' :: '\n' :: rest => advance ⟨p.line + 1, 1⟩ rest
  | p, c :: rest => if c = '\n' then advance ⟨p.line + 1, 1⟩ rest else advance ⟨p.line, p.col + 1⟩ rest

/-- The position some columns to the right. -/
def right (p : Position) (columns : Nat) : Position := ⟨p.line, p.col + columns⟩

/-- The written form. -/
def text (p : Position) : String := s!"{p.line}:{p.col}"

end Position
end Regen
