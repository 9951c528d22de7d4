import Regen.Text.Digit
import Regen.Text.Cut

/-! Numbers of the binary64 format as exact values. A finite number is a
significand below `2 ^ 53` times a power of two; reading a decimal rounds to
the nearest such number, a tie going to the even significand. -/
namespace Regen

/-- A finite number is `significand * 2 ^ exponent` with a sign; the exponent
is the least one possible unless the significand has all 53 bits. -/
inductive Binary64 where
  | nan
  | infinity (negative : Bool)
  | finite (negative : Bool) (significand : Nat) (exponent : Int)
deriving DecidableEq, Repr

namespace Binary64

/-- The least exponent, that of the subnormal numbers. -/
def minExponent : Int := -1074

/-- The greatest exponent of a finite number. -/
def maxExponent : Int := 971

/-- The quotient rounded to the nearest integer, a tie to the even one. -/
def roundHalfEven (num den : Nat) : Nat :=
  let floor := num / den
  let twice := 2 * (num % den)
  if twice < den then floor
  else if den < twice then floor + 1
  else if floor % 2 = 0 then floor
  else floor + 1

/-- Numerator and denominator of `num / den / 2 ^ exponent`. -/
def unscale (num den : Nat) (exponent : Int) : Nat × Nat :=
  if exponent < 0 then (num * Nat.pow 2 exponent.natAbs, den)
  else (num, den * Nat.pow 2 exponent.natAbs)

/-- The exponent at which the significand of `num / den` has 53 bits, or the
least exponent where that one is smaller. -/
def exponentOf (num den : Nat) : Int :=
  let guess : Int := (num.log2 : Int) - (den.log2 : Int)
  let (whole, part) := unscale num den guess
  let exact := if whole < part then guess - 53 else guess - 52
  max exact minExponent

/-- The number nearest to `num / den`; infinity when that is beyond the
greatest finite number by half its last place or more. -/
def ofRatio (negative : Bool) (num den : Nat) : Binary64 :=
  if num = 0 then .finite negative 0 minExponent
  else
    let exponent := exponentOf num den
    let (whole, part) := unscale num den exponent
    let significand := roundHalfEven whole part
    let (significand, exponent) :=
      if significand = Nat.pow 2 53 then (Nat.pow 2 52, exponent + 1) else (significand, exponent)
    if maxExponent < exponent then .infinity negative
    else .finite negative significand exponent

/-- The number nearest to `digits * 10 ^ exponent`. Decimals outside the range
of the format by many orders of magnitude are settled by their magnitude. -/
def ofDecimal (negative : Bool) (digits : Nat) (exponent : Int) : Binary64 :=
  let magnitude := exponent + (Nat.repr digits).length
  if digits = 0 || magnitude < -330 then .finite negative 0 minExponent
  else if 310 < magnitude then .infinity negative
  else if exponent < 0 then ofRatio negative digits (Nat.pow 10 exponent.natAbs)
  else ofRatio negative (digits * Nat.pow 10 exponent.natAbs) 1

/-- The number nearest to an integer. -/
def ofInt (n : Int) : Binary64 :=
  ofRatio (n < 0) n.natAbs 1

/-- Neither infinite nor undefined. -/
def isFinite : Binary64 → Bool
  | .finite .. => true
  | _ => false

/-- Zero of either sign. -/
def isZero : Binary64 → Bool
  | .finite _ significand _ => significand = 0
  | _ => false

/-- The exact value of a finite number. -/
def toRat? : Binary64 → Option Rat
  | .finite negative significand exponent =>
    let (whole, part) := unscale significand 1 (-exponent)
    some (mkRat (if negative then -(whole : Int) else whole) part)
  | _ => none

end Binary64

namespace Decimal

/-- The number that a run of ASCII digits denotes. -/
def digitsValue (digits : Text) : Nat :=
  digits.foldl (fun value c => value * 10 + (c.toNat - 48)) 0

/-- The exponent after its mark: digits with an optional sign. -/
def readExponent : Text → Int
  | '-' :: digits => -(digitsValue digits : Int)
  | '+' :: digits => digitsValue digits
  | digits => digitsValue digits

/-- The unsigned decimal `digits.digits`, with an optional exponent. -/
def readUnsigned (negative : Bool) (text : Text) : Binary64 :=
  let whole := text.takeWhile Text.isAsciiDigit
  let rest := (text.dropWhile Text.isAsciiDigit).dropWhile (· == '.')
  let fraction := rest.takeWhile Text.isAsciiDigit
  let exponent := match rest.dropWhile Text.isAsciiDigit with
    | 'e' :: digits => readExponent digits
    | 'E' :: digits => readExponent digits
    | _ => 0
  Binary64.ofDecimal negative (digitsValue (whole ++ fraction)) (exponent - fraction.length)

/-- Reads a decimal with an optional sign, or the name of a number that is not
finite. -/
def read : Text → Binary64
  | '-' :: text => if text == ['i', 'n', 'f'] then .infinity true else readUnsigned true text
  | text =>
    if text == ['i', 'n', 'f'] then .infinity false
    else if text == ['n', 'a', 'n'] then .nan
    else readUnsigned false text

end Decimal
end Regen
