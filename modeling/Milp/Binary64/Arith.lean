import Milp.Binary64.Basic

/-!
# Arithmetic of the format

Each operation computes its result exactly, as a whole number or a ratio of units, and rounds once.
Infinities and NaN follow the usual rules: opposite infinities do not add up, infinity times zero is
NaN, and NaN spreads through everything but the comparisons. `Binary64.bits` is the 64-bit word that
stores a number.
-/

namespace Milp.Binary64

/-! ## Sign and size -/

def neg : Binary64 → Binary64
  | nan => nan
  | infinite s => infinite !s
  | finite s m => finite (!s) m

def abs : Binary64 → Binary64
  | nan => nan
  | infinite _ => infinite false
  | finite _ m => finite false m

/-- Negative zero becomes zero, everything else stays. -/
def unsignZero : Binary64 → Binary64
  | finite s m => if m.units = 0 then zero else finite s m
  | x => x

@[simp] theorem neg_neg (x : Binary64) : x.neg.neg = x := by
  cases x <;> simp [neg]

@[simp] theorem isFinite_neg (x : Binary64) : x.neg.isFinite = x.isFinite := by
  cases x <;> rfl

/-! ## The four operations -/

/-- **The sum**, rounded once. A sum that vanishes is positive unless both terms are negative. -/
def add : Binary64 → Binary64 → Binary64
  | nan, _ => nan
  | _, nan => nan
  | infinite s, infinite t => if s = t then infinite s else nan
  | infinite s, finite _ _ => infinite s
  | finite _ _, infinite t => infinite t
  | finite s m, finite t n =>
    let total := (finite s m).units + (finite t n).units
    if total = 0 then finite (s && t) Size.zero else ofUnits total

def sub (x y : Binary64) : Binary64 := x.add y.neg

/-- **The product**, rounded once. -/
def mul : Binary64 → Binary64 → Binary64
  | nan, _ => nan
  | _, nan => nan
  | infinite s, infinite t => infinite (s != t)
  | infinite s, finite t n => if n.units = 0 then nan else infinite (s != t)
  | finite s m, infinite t => if m.units = 0 then nan else infinite (s != t)
  | finite s m, finite t n => ofRatio (s != t) (m.units * n.units) unitsPerOne

/-- **The quotient**, rounded once. -/
def div : Binary64 → Binary64 → Binary64
  | nan, _ => nan
  | _, nan => nan
  | infinite _, infinite _ => nan
  | infinite s, finite t _ => infinite (s != t)
  | finite s _, infinite t => finite (s != t) Size.zero
  | finite s m, finite t n =>
    if n.units = 0 then (if m.units = 0 then nan else infinite (s != t))
    else ofRatio (s != t) (m.units * unitsPerOne) n.units

/-! ## Whole numbers -/

/-- The whole number with this sign and size, rounded to the format. -/
def ofWhole (negative : Bool) (n : Int) : Binary64 := ofRatio negative (n.natAbs * unitsPerOne) 1

/-- The largest whole number that is not above `x`; infinities and NaN stay. -/
def floor : Binary64 → Binary64
  | finite s m => ofWhole s ((finite s m).units.fdiv unitsPerOne)
  | x => x

/-- The smallest whole number that is not below `x`. -/
def ceil : Binary64 → Binary64
  | finite s m => ofWhole s (-(-(finite s m).units).fdiv unitsPerOne)
  | x => x

/-- The nearest whole number, a half going to the even neighbour. -/
def roundEven : Binary64 → Binary64
  | finite s m => ofWhole s (roundQuotient m.units unitsPerOne)
  | x => x

/-- `x` rounded to `places` decimal places: scaled by a power of ten, rounded to a whole number and
scaled back, each step rounded to the format. -/
def roundPlaces (x : Binary64) (places : Nat) : Binary64 :=
  ((x.mul (ofNat (Nat.pow 10 places))).roundEven).div (ofNat (Nat.pow 10 places))

/-- A finite number is whole when its units are a multiple of those of one. -/
def isWhole : Binary64 → Bool
  | finite _ m => m.units % unitsPerOne == 0
  | _ => false

/-- The integer part of a finite number, toward zero. -/
def truncate? : Binary64 → Option Int
  | finite s m => some ((finite s m).units.tdiv unitsPerOne)
  | _ => none

/-! ## Choosing between two numbers -/

/-- The larger of two numbers; NaN if either is NaN. -/
def maximum (x y : Binary64) : Binary64 :=
  if x.isNaN then x else if y.isNaN then y else if y.le x then x else y

/-- The smaller of two numbers; NaN if either is NaN. -/
def minimum (x y : Binary64) : Binary64 :=
  if x.isNaN then x else if y.isNaN then y else if x.le y then x else y

/-- **`x` moved into the box** `[lo, hi]`: raised to `lo`, then lowered to `hi`. -/
def clip (x lo hi : Binary64) : Binary64 := (x.maximum lo).minimum hi

/-! ## Integers on the line -/

/-- **The place of an integer**. An integer beyond every finite number is kept just inside the
limit, so that it compares rightly with all numbers of the format, infinities included. -/
def intPlace (n : Int) : Int :=
  max (-(sizeLimit - 1)) (min (sizeLimit - 1) (n * unitsPerOne))

/-! ## The stored word -/

/-- **The 64-bit word** of a number: sign, eleven bits of exponent, 52 bits of fraction. NaN has the
one word `7ff8000000000000`. -/
def bits : Binary64 → Nat
  | nan => 0x7ff8000000000000
  | infinite s => (if s then Nat.pow 2 63 else 0) + 0x7ff0000000000000
  | finite s m =>
    let word :=
      if m.units < Nat.pow 2 52 then m.units
      else
        let shift := m.units.log2 - 52
        shift * Nat.pow 2 52 + m.units / Nat.pow 2 shift
    (if s then Nat.pow 2 63 else 0) + word

end Milp.Binary64
