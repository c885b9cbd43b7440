import Milp.Decimal.Digits

/-!
# Decimals as text

How the shortest digits of a number are laid out, for answers and messages. A `Layout` says where
positional notation starts and ends and whether a whole number is followed by a point and a zero.
-/

namespace Milp.Decimal

/-- Decisions about the layout of a decimal. -/
structure Layout where
  /-- the least exponent of the leading digit that is written positionally -/
  least : Int
  /-- the first exponent of the leading digit that is written with an exponent again -/
  below : Int
  /-- a whole number in positional notation ends in `.0` -/
  wholeMark : Bool

/-- Numbers in answers: positional from `10 ^ -4` up to below `10 ^ 16`, whole numbers with `.0`. -/
def Layout.plain : Layout := ⟨-4, 16, true⟩

/-- An exponent: its sign and at least two digits. -/
def exponentText (e : Int) : List Char :=
  let digits := Nat.toDigits 10 e.natAbs
  'e' :: (if e < 0 then '-' else '+') ::
    (List.replicate (2 - digits.length) '0' ++ digits)

/-- The digits of a number without the zeros at its end. -/
def bareDigits (n : Nat) : List Char :=
  ((Nat.toDigits 10 n).reverse.dropWhile (· == '0')).reverse

/-- **A positive decimal as text.** -/
def Layout.text (l : Layout) (d : Decimal) : List Char :=
  let lead : Int := d.exponent + width d.digits - 1
  let digits := bareDigits d.digits
  if l.least ≤ lead ∧ lead < l.below then
    if lead < 0 then
      '0' :: '.' :: (List.replicate (-lead - 1).toNat '0' ++ digits)
    else
      let whole := (lead + 1).toNat
      if digits.length ≤ whole then
        digits ++ List.replicate (whole - digits.length) '0' ++
          (if l.wholeMark then ['.', '0'] else [])
      else digits.take whole ++ '.' :: digits.drop whole
  else
    match digits with
    | [] => []
    | [c] => c :: exponentText lead
    | c :: rest => c :: '.' :: (rest ++ exponentText lead)

/-- A sign before a text. -/
def signed (negative : Bool) (text : List Char) : String :=
  String.ofList (if negative then '-' :: text else text)

end Milp.Decimal

namespace Milp.Binary64

open Milp.Decimal

/-- **The number as it stands in answers and messages**: the shortest digits that read back, the sign
of zero kept. -/
def text : Binary64 → String
  | nan => "nan"
  | infinite s => signed s "inf".toList
  | finite s m =>
    signed s (if m.units = 0 then "0.0".toList else Layout.plain.text (shortest m.units))

end Milp.Binary64
