import Regen.Decimal.Binary64

/-! The shortest decimal text of a binary64 number: the fewest digits that read
back as the number, and of those the nearest to it. Digits are sought on ever
finer decimal grids; on the first grid with a point that rounds to the number,
one of the two points around the number does. -/
namespace Regen.Decimal

/-- A positive ratio. -/
structure Ratio where
  num : Nat
  den : Nat
deriving DecidableEq, Repr

namespace Ratio

/-- The ratio times `2 ^ power`. -/
def scaleTwo (r : Ratio) (power : Int) : Ratio :=
  if power < 0 then ⟨r.num, r.den * Nat.pow 2 power.natAbs⟩
  else ⟨r.num * Nat.pow 2 power.natAbs, r.den⟩

/-- The ratio times `10 ^ power`. -/
def scaleTen (r : Ratio) (power : Int) : Ratio :=
  if power < 0 then ⟨r.num, r.den * Nat.pow 10 power.natAbs⟩
  else ⟨r.num * Nat.pow 10 power.natAbs, r.den⟩

/-- Order of two ratios. -/
def le (a b : Ratio) : Bool := a.num * b.den ≤ b.num * a.den

/-- Strict order of two ratios. -/
def lt (a b : Ratio) : Bool := a.num * b.den < b.num * a.den

end Ratio

/-- The reals that round to a number, between `low` and `high`; the bounds
themselves round to it when its significand is even. -/
structure Neighbourhood where
  value : Ratio
  low : Ratio
  high : Ratio
  closed : Bool
deriving Repr

/-- The neighbourhood of `significand * 2 ^ exponent`. Below a power of two the
numbers lie twice as close, so the lower bound is half as far. -/
def neighbourhood (significand : Nat) (exponent : Int) : Neighbourhood :=
  let quarter (n : Nat) : Ratio := (⟨n, 1⟩ : Ratio).scaleTwo (exponent - 2)
  let below := if significand = Nat.pow 2 52 && Binary64.minExponent < exponent then 1 else 2
  { value := quarter (4 * significand)
    low := quarter (4 * significand - below)
    high := quarter (4 * significand + 2)
    closed := significand % 2 = 0 }

/-- Whether a real rounds to the number. -/
def Neighbourhood.holds (near : Neighbourhood) (r : Ratio) : Bool :=
  if near.closed then near.low.le r && r.le near.high else near.low.lt r && r.lt near.high

/-- A decimal `digits * 10 ^ exponent`. -/
structure Digits where
  digits : Nat
  exponent : Int
deriving DecidableEq, Repr

/-- The value of a decimal. -/
def Digits.ratio (d : Digits) : Ratio := (⟨d.digits, 1⟩ : Ratio).scaleTen d.exponent

/-- The point of the grid of multiples of `10 ^ exponent` that rounds to the
number, the nearer one where both neighbours do and the even one in a tie. -/
def Neighbourhood.onGrid? (near : Neighbourhood) (exponent : Int) : Option Digits :=
  let steps := near.value.scaleTen (-exponent)
  let floor := steps.num / steps.den
  let twice := 2 * (steps.num % steps.den)
  let below : Digits := ⟨floor, exponent⟩
  let above : Digits := ⟨floor + 1, exponent⟩
  match near.holds below.ratio, near.holds above.ratio with
  | true, true =>
    if twice < steps.den then some below
    else if steps.den < twice then some above
    else if floor % 2 = 0 then some below
    else some above
  | true, false => some below
  | false, true => some above
  | false, false => none

/-- The position of the decimal point: the least `k` with the number below
`10 ^ k`. Four hundred places make every positive number of the format an
integer part with digits. -/
def pointPosition (value : Ratio) : Int :=
  let shifted := value.scaleTen 400
  ((Nat.repr (shifted.num / shifted.den)).length : Int) - 400

/-- Seventeen digits tell any two numbers of the format apart. -/
def maxDigits : Nat := 17

/-- The fewest digits that read back as a positive number. -/
def shortest (significand : Nat) (exponent : Int) : Digits :=
  let near := neighbourhood significand exponent
  let point := pointPosition near.value
  let grids := (List.range maxDigits).map fun n => point - (n + 1 : Nat)
  (grids.findSome? near.onGrid?).getD ⟨0, 0⟩

/-- How numbers are laid out: positionally when the decimal point stands after
`positionalFrom` and not after `positionalTo`, with an exponent of at least
`exponentWidth` digits otherwise. -/
structure Layout where
  positionalFrom : Int
  positionalTo : Int
  exponentWidth : Nat
deriving DecidableEq, Repr

private def zeros (n : Nat) : Text := List.replicate n '0'

/-- Digits, not all zero, with the decimal point after `point` of them. -/
def Layout.positional (digits : Text) (point : Int) : Text :=
  if point ≤ 0 then '0' :: '.' :: zeros point.natAbs ++ digits
  else if digits.length ≤ point.natAbs then
    digits ++ zeros (point.natAbs - digits.length) ++ ['.', '0']
  else digits.take point.natAbs ++ '.' :: digits.drop point.natAbs

/-- Digits with the point after the first of them and a power of ten. -/
def Layout.scientific (layout : Layout) (digits : Text) (point : Int) : Text :=
  let power := point - 1
  let fraction := match digits.drop 1 with
    | [] => []
    | more => '.' :: more
  let written := (Nat.repr power.natAbs).toList
  digits.take 1 ++ fraction ++ 'e' :: (if power < 0 then '-' else '+') ::
    zeros (layout.exponentWidth - written.length) ++ written

/-- The text of a number. -/
def Layout.write (layout : Layout) : Binary64 → Text
  | .nan => ['n', 'a', 'n']
  | .infinity negative => (if negative then ['-'] else []) ++ ['i', 'n', 'f']
  | .finite negative significand exponent =>
    let sign := if negative then ['-'] else []
    if significand = 0 then sign ++ ['0', '.', '0']
    else
      let found := shortest significand exponent
      let written := (Nat.repr found.digits).toList
      let point := found.exponent + written.length
      let digits := Text.trimEnd (· == '0') written
      if layout.positionalFrom < point && point ≤ layout.positionalTo then
        sign ++ Layout.positional digits point
      else sign ++ layout.scientific digits point

end Regen.Decimal
