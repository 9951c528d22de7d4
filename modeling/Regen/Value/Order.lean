import Regen.Value.Key

/-! The order of values. Numbers are ordered as such, texts by their characters
and sequences by the first items that differ; other values have no order. -/
namespace Regen

/-- Two values without an order, the one that is asked about first. -/
structure Disorder where
  first : Value
  second : Value
deriving Repr

/-- The complaint about values without an order. -/
def Disorder.message (disorder : Disorder) : String :=
  s!"'<' not supported between instances of '{disorder.first.kindName}' " ++
    s!"and '{disorder.second.kindName}'"

namespace Value

/-- Whether a value is a number, the undefined one included. -/
def isNumber : Value → Bool
  | .bool _ => true
  | .int _ => true
  | .float _ => true
  | _ => false

/-- Whether one number lies before another; the undefined one lies nowhere. -/
def numberBefore (a b : Value) : Bool :=
  match a.standing?, b.standing? with
  | some p, some q => p.1 < q.1 || (p.1 == q.1 && p.2 < q.2)
  | _, _ => false

mutual

/-- Whether one value comes before another. -/
def before? : Value → Value → Except Disorder Bool
  | .text a, .text b => .ok (a < b)
  | .tuple a, .tuple b => beforeItems? a b
  | a, b => if a.isNumber && b.isNumber then .ok (numberBefore a b) else .error ⟨a, b⟩

/-- Whether one sequence comes before another; one that ends first does. -/
def beforeItems? : List Value → List Value → Except Disorder Bool
  | [], others => .ok (!others.isEmpty)
  | _ :: _, [] => .ok false
  | a :: more, b :: others => if sameKey a b then beforeItems? more others else before? a b

end

end Value
end Regen
