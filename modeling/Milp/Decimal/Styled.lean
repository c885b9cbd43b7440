import Milp.Decimal.Layout

/-!
# Rounded decimals in three styles

A number rounded to a chosen precision: with decimal places, with a power of ten, or with significant
digits, where the size of the number decides between the other two. A point that nothing follows is
left out unless it is asked for.

* `Binary64.styled` writes a number in a style.
-/

namespace Milp.Decimal

/-- **The ways to write a rounded number.** The precision counts decimal places in the first two, and
significant digits in the third. -/
inductive Style where
  | fixed
  | scientific
  | general
  deriving DecidableEq

/-- Digits filled up with zeros in front to a least number of them. -/
def leading (least : Nat) (digits : List Char) : List Char :=
  List.replicate (least - digits.length) '0' ++ digits

/-- Digits before a point and digits behind it. -/
def around (point : Bool) (whole fraction : List Char) : List Char :=
  if fraction.isEmpty && !point then whole else whole ++ '.' :: fraction

/-- `n` units with `places` decimal places. -/
def fixedText (point : Bool) (places n : Nat) : List Char :=
  let steps := scaled places n
  let fraction := if places = 0 then [] else leading places (Nat.toDigits 10 (steps % Nat.pow 10 places))
  around point (Nat.toDigits 10 (steps / Nat.pow 10 places)) fraction

/-- The nearest decimal to `n` units with `p` digits and the exponent of its leading digit; zero has
the exponent zero. -/
def leadAndDigits (p n : Nat) : Int × List Char :=
  if n = 0 then (0, List.replicate p '0')
  else
    let d := significant p n
    (d.exponent + width d.digits - 1, (Nat.toDigits 10 d.digits).take p)

/-- `n` units with one digit before the point and `places` behind it. -/
def scientificText (point : Bool) (places n : Nat) : List Char :=
  let (lead, digits) := leadAndDigits (places + 1) n
  around point (digits.take 1) (digits.drop 1) ++ exponentText lead

/-- The zeros at the end of a fraction left out. -/
def trimmed (fraction : List Char) : List Char := (fraction.reverse.dropWhile (· == '0')).reverse

/-- `n` units with `p` significant digits: positional while the leading digit lies between the fourth
decimal place and the precision. Zeros at the end are kept with the point only. -/
def generalText (point : Bool) (p n : Nat) : List Char :=
  let (lead, digits) := leadAndDigits p n
  let keep := fun (fraction : List Char) => if point then fraction else trimmed fraction
  if -4 ≤ lead ∧ lead < p then
    if lead < 0 then around point ['0'] (keep (List.replicate (-lead - 1).toNat '0' ++ digits))
    else
      let whole := lead.toNat + 1
      around point (digits.take whole) (keep (digits.drop whole))
  else around point (digits.take 1) (keep (digits.drop 1)) ++ exponentText lead

/-- `n` units in a style. -/
def Style.text (style : Style) (point : Bool) (precision n : Nat) : List Char :=
  match style with
  | fixed => fixedText point precision n
  | scientific => scientificText point precision n
  | general => generalText point (max precision 1) n

end Milp.Decimal

namespace Milp.Binary64

open Milp.Decimal

/-- **A number in a style**, rounded to a precision; `point` keeps the point and the zeros behind it. -/
def styled (style : Style) (point : Bool) (precision : Nat) : Binary64 → String
  | nan => "nan"
  | infinite s => signed s "inf".toList
  | finite s m => signed s (style.text point precision m.units)

/-- The number rounded to `p` significant digits, zeros at the end dropped. -/
def significantText (p : Nat) (x : Binary64) : String := x.styled .general false p

/-- The number rounded to three decimal places. -/
def millisText (x : Binary64) : String := x.styled .fixed false 3

end Milp.Binary64
