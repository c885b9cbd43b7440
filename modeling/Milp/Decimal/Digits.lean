import Milp.Binary64.Arith

/-!
# Decimals of a number

Three ways to choose decimal digits for a finite number, all in exact integer arithmetic:

* `shortest` — the fewest digits that read back as the same number, and of those the nearest;
* `significant p` — the nearest decimal with `p` digits;
* `scaled places` — the nearest multiple of `10 ^ -places`.
-/

namespace Milp

/-- The decimal `digits · 10 ^ exponent`. -/
structure Decimal where
  digits : Nat
  exponent : Int
  deriving DecidableEq

namespace Decimal

/-- The number of decimal digits of `n`. -/
def width (n : Nat) : Nat := (Nat.toDigits 10 n).length

/-- **The decimal order** of `n > 0` units: the least `k` such that the number lies below `10 ^ k`. The
smallest number of the format is above `10 ^ -400`. -/
def order (n : Nat) : Int := (width (n * Nat.pow 10 400 / unitsPerOne) : Int) - 400

/-- `n` units measured in steps of `10 ^ exponent`, as numerator and denominator. -/
def inSteps (n : Nat) (exponent : Int) : Nat × Nat :=
  if 0 ≤ exponent then (n, unitsPerOne * Nat.pow 10 exponent.toNat)
  else (n * Nat.pow 10 (-exponent).toNat, unitsPerOne)

/-! ## The interval of a number -/

/-- Twice the distance from `n` units down to the point where rounding goes over to the number
below: the spacing, halved at a power of two that starts a wider spacing. -/
def gapBelow (n : Nat) : Nat :=
  let step := Nat.pow 2 (n.log2 - 52)
  if n = Nat.pow 2 n.log2 ∧ 1 < step then step / 2 else step

/-- Twice the distance from `n` units up to the point where rounding goes over to the number above. -/
def gapAbove (n : Nat) : Nat := Nat.pow 2 (n.log2 - 52)

/-- The end points of the interval round to `n` units when the significand is even. -/
def endsRoundHere (n : Nat) : Bool := n / Nat.pow 2 (n.log2 - 52) % 2 == 0

/-- **Whether a decimal reads back** as the number of `n` units: it lies in the number's interval. -/
def readsBack (n : Nat) (d : Decimal) : Bool :=
  let low := 2 * n - gapBelow n
  let high := 2 * n + gapAbove n
  let (point, scale) :=
    if 0 ≤ d.exponent then (2 * d.digits * Nat.pow 10 d.exponent.toNat * unitsPerOne, 1)
    else (2 * d.digits * unitsPerOne, Nat.pow 10 (-d.exponent).toNat)
  if endsRoundHere n then decide (low * scale ≤ point ∧ point ≤ high * scale)
  else decide (low * scale < point ∧ point < high * scale)

/-! ## Choosing digits -/

/-- The nearest decimal to `n` units on the grid of `10 ^ exponent`, a tie going to the even digit. -/
def nearest (n : Nat) (exponent : Int) : Decimal :=
  let (num, den) := inSteps n exponent
  ⟨Binary64.roundQuotient num den, exponent⟩

/-- The decimal on a grid that reads back as `n` units, if one of the number's two neighbours on the
grid does; of two the nearer. -/
def onGrid? (n : Nat) (exponent : Int) : Option Decimal :=
  let (num, den) := inSteps n exponent
  let below : Decimal := ⟨num / den, exponent⟩
  let above : Decimal := ⟨num / den + 1, exponent⟩
  match readsBack n below, readsBack n above with
  | true, true => some (nearest n exponent)
  | true, false => some below
  | false, true => some above
  | false, false => none

/-- **The shortest decimal** that reads back as `n > 0` units, the nearest of those. Seventeen digits
always suffice. -/
def shortest (n : Nat) : Decimal :=
  let k := order n
  ((List.range 17).findSome? fun (p : Nat) => onGrid? n (k - (p + 1))).getD (nearest n (k - 17))

/-- The nearest decimal to `n > 0` units with `p` significant digits. -/
def significant (p n : Nat) : Decimal := nearest n (order n - p)

/-- The nearest multiple of `10 ^ -places` to `n` units. -/
def scaled (places n : Nat) : Nat := (nearest n (-(places : Int))).digits

end Decimal

end Milp
