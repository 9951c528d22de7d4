import Regen.Value

/-! Keys of tables. Texts, numbers and what is put together of them can be keys;
lists and tables, which change, cannot. Numbers of different kinds that are
equal are one key. -/
namespace Regen

namespace Value

mutual

/-- The kind of the part for which a value cannot be a key of a table: lists,
tables and actions change, and a value that holds one is none either. -/
def unkeyable? : Value → Option String
  | .list _ => some "list"
  | .table _ => some "dict"
  | .action .. => some "ActionSpec"
  | .tuple items => unkeyableAll? items
  | .param type required default doc =>
    (unkeyable? type).or <| (unkeyable? required).or <| (unkeyable? default).or (unkeyable? doc)
  | _ => Option.none

/-- The kind of the first such part of several values. -/
def unkeyableAll? : List Value → Option String
  | [] => Option.none
  | item :: more => (unkeyable? item).or (unkeyableAll? more)

end

/-- The complaint about a value of a kind that cannot be a key. -/
def noKeyMessage (kind : String) : String := s!"unhashable type: '{kind}'"

/-- Where a number lies: before, among or after the finite ones, and where among
those. The truth values count as numbers, and what is no number lies nowhere. -/
def standing? : Value → Option (Int × Rat)
  | .bool b => some (0, if b then 1 else 0)
  | .int n => some (0, n)
  | .float (.infinity negative) => some (if negative then -1 else 1, 0)
  | .float x => x.toRat?.map (0, ·)
  | _ => Option.none

/-- Whether two values are equal numbers. -/
def sameNumber (a b : Value) : Bool :=
  match a.standing?, b.standing? with
  | some p, some q => p == q
  | _, _ => false

mutual

/-- Whether two values are the same key. -/
def sameKey : Value → Value → Bool
  | .text a, .text b => a == b
  | .none, .none => true
  | .variable a, .variable b => a == b
  | .tuple a, .tuple b => sameKeys a b
  | .param type required default doc, .param type' required' default' doc' =>
    sameKey type type' && sameKey required required' && sameKey default default' && sameKey doc doc'
  | .text _, _ => false
  | .none, _ => false
  | .variable _, _ => false
  | .tuple _, _ => false
  | .param .., _ => false
  | a, b => sameNumber a b

/-- Whether two sequences of values are the same key. -/
def sameKeys : List Value → List Value → Bool
  | [], [] => true
  | a :: more, b :: others => sameKey a b && sameKeys more others
  | _, _ => false

end

/-- A text is the same key as itself alone. -/
@[simp] theorem sameKey_text (a : Value) (name : String) :
    a.sameKey (.text name) = true ↔ a = .text name := by
  cases a with
  | text s => simp [sameKey]
  | float x => cases x <;> simp [sameKey, sameNumber, standing?]
  | _ => simp [sameKey, sameNumber, standing?]

end Value
end Regen
