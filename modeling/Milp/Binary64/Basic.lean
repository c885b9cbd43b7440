/-!
# Binary64 — the numbers that models are written in

A number of the 64-bit binary format is NaN, an infinity, or a sign with a *size*. Sizes are counted
in units of 2⁻¹⁰⁷⁴, the smallest positive number of the format: every finite number is a whole
number of units, so order and exact arithmetic are those of the integers, and only the last step of
an operation rounds.

* `Representable n` says which numbers of units the format holds: at most 53 significant bits, below
  the limit.
* `Binary64.place?` puts every number but NaN on one line of integers, infinities at the two ends;
  the comparisons of the format are the comparisons of places.
* `Binary64.ofRatio` rounds a ratio of units to nearest, halves to the even neighbour.
-/

namespace Milp

/-! ## Sizes -/

/-- **One**, counted in units of 2⁻¹⁰⁷⁴. -/
@[irreducible] def unitsPerOne : Nat := Nat.pow 2 1074

/-- **The limit** of the format, 2¹⁰²⁴ in units: sizes that round to it or beyond become infinite. -/
@[irreducible] def sizeLimit : Nat := Nat.pow 2 2098

theorem unitsPerOne_pos : 0 < unitsPerOne := by
  unfold unitsPerOne
  generalize 1074 = k
  exact Nat.two_pow_pos k

theorem sizeLimit_pos : 0 < sizeLimit := by
  unfold sizeLimit
  generalize 2098 = k
  exact Nat.two_pow_pos k

/-- **`Representable n`** — the format holds a number of `n` units: `n` lies below the limit and has
at most 53 significant bits. -/
def Representable (n : Nat) : Prop := n < sizeLimit ∧ Nat.pow 2 (n.log2 - 52) ∣ n

instance (n : Nat) : Decidable (Representable n) := inferInstanceAs (Decidable (_ ∧ _))

theorem representable_zero : Representable 0 := ⟨sizeLimit_pos, Nat.dvd_zero _⟩

/-- A significand of at most 2⁵³ times a power of two has at most 53 significant bits. -/
theorem representable_mul_two_pow {k s : Nat} (hk : k ≤ Nat.pow 2 53)
    (h : k * Nat.pow 2 s < sizeLimit) : Representable (k * Nat.pow 2 s) := by
  refine ⟨h, ?_⟩
  simp only [Nat.pow_eq] at hk ⊢
  rcases Nat.eq_zero_or_pos k with rfl | hpos
  · rw [Nat.zero_mul]; exact Nat.dvd_zero _
  have hne : k * 2 ^ s ≠ 0 := Nat.ne_of_gt (Nat.mul_pos hpos (Nat.two_pow_pos s))
  rcases Nat.lt_or_eq_of_le hk with hlt | rfl
  · have hlog : (k * 2 ^ s).log2 < 53 + s := by
      rw [Nat.log2_lt hne, Nat.pow_add]
      exact Nat.mul_lt_mul_of_pos_right hlt (Nat.two_pow_pos s)
    exact Nat.dvd_trans (Nat.pow_dvd_pow 2 (by omega)) (Nat.dvd_mul_left _ _)
  · rw [← Nat.pow_add] at hne ⊢
    exact Nat.pow_dvd_pow 2 (by rw [Nat.log2_two_pow]; omega)

/-- A size that the format holds, in units. -/
structure Size where
  units : Nat
  representable : Representable units
  deriving DecidableEq

/-- The size of zero. -/
def Size.zero : Size := ⟨0, representable_zero⟩

/-! ## Numbers -/

/-- **A number of the format**: not a number, an infinity, or a sign with a size. Zero has a sign. -/
inductive Binary64 where
  | nan
  | infinite (negative : Bool)
  | finite (negative : Bool) (size : Size)
  deriving DecidableEq

namespace Binary64

/-- Positive zero. -/
def zero : Binary64 := finite false Size.zero

/-- Positive infinity. -/
def infinity : Binary64 := infinite false

/-- Negative infinity. -/
def negInfinity : Binary64 := infinite true

instance : Inhabited Binary64 := ⟨zero⟩

def isNaN : Binary64 → Bool
  | nan => true
  | _ => false

def isInfinite : Binary64 → Bool
  | infinite _ => true
  | _ => false

def isFinite : Binary64 → Bool
  | finite _ _ => true
  | _ => false

/-- A number, if it is finite. -/
def finite? (x : Binary64) : Option Binary64 := if x.isFinite then some x else none

theorem finite?_eq_some_iff {x y : Binary64} : x.finite? = some y ↔ x = y ∧ y.isFinite = true := by
  unfold finite?
  split
  · rename_i hfinite
    rw [Option.some.injEq]
    exact ⟨fun h => ⟨h, h ▸ hfinite⟩, fun h => h.1⟩
  · rename_i hfinite
    refine iff_of_false nofun ?_
    rintro ⟨rfl, h⟩
    exact hfinite h

/-- Whether the sign is set. NaN counts as unsigned. -/
def isNegative : Binary64 → Bool
  | nan => false
  | infinite s => s
  | finite s _ => s

/-- The signed number of units of a finite number, zero for the others. -/
def units : Binary64 → Int
  | finite false m => m.units
  | finite true m => -m.units
  | _ => 0

/-- **The place of a number on the line of integers**: its signed units, with the infinities at plus
and minus the limit, which no finite number reaches. NaN has no place. -/
def place? : Binary64 → Option Int
  | nan => none
  | infinite false => some sizeLimit
  | infinite true => some (-sizeLimit)
  | finite false m => some m.units
  | finite true m => some (-m.units)

/-- `x < y`; false when either is NaN. -/
def lt (x y : Binary64) : Bool :=
  match x.place?, y.place? with
  | some a, some b => decide (a < b)
  | _, _ => false

/-- `x ≤ y`; false when either is NaN. -/
def le (x y : Binary64) : Bool :=
  match x.place?, y.place? with
  | some a, some b => decide (a ≤ b)
  | _, _ => false

/-- Equal as numbers: the two zeros are equal, NaN equals nothing. -/
def same (x y : Binary64) : Bool :=
  match x.place?, y.place? with
  | some a, some b => decide (a = b)
  | _, _ => false

theorem place?_eq_none_iff {x : Binary64} : x.place? = none ↔ x = nan := by
  cases x with
  | nan => simp [place?]
  | infinite s => cases s <;> simp [place?]
  | finite s m => cases s <;> simp [place?]

theorem place?_of_isFinite {x : Binary64} (h : x.isFinite = true) : x.place? = some x.units := by
  cases x with
  | nan => simp [isFinite] at h
  | infinite s => simp [isFinite] at h
  | finite s m => cases s <;> rfl

@[simp] theorem same_zero_finite (s : Bool) (m : Size) :
    same (finite s m) zero = decide (m.units = 0) := by
  cases s <;> simp [same, place?, zero, Size.zero]

/-! ## Rounding -/

/-- The nearest whole number to `num / den`, a half going to the even neighbour. -/
def roundQuotient (num den : Nat) : Nat :=
  let q := num / den
  let r := num % den
  if 2 * r < den then q
  else if den < 2 * r then q + 1
  else if q % 2 = 0 then q else q + 1

theorem roundQuotient_le {num den k : Nat} (hden : 0 < den) (h : num < k * den) :
    roundQuotient num den ≤ k := by
  have hq : num / den < k := (Nat.div_lt_iff_lt_mul hden).2 h
  unfold roundQuotient
  dsimp only
  repeat' split
  all_goals omega

/-- The spacing of the format around `num / den` units, as a power of two. -/
def spacing (num den : Nat) : Nat := (num / den).log2 - 52

/-- `num / den` units rounded to 53 significant bits, still unlimited in size. -/
def roundUnits (num den : Nat) : Nat :=
  roundQuotient num (den * Nat.pow 2 (spacing num den)) * Nat.pow 2 (spacing num den)

theorem roundUnits_representable {num den : Nat} (hden : 0 < den)
    (h : roundUnits num den < sizeLimit) : Representable (roundUnits num den) := by
  refine representable_mul_two_pow ?_ h
  refine roundQuotient_le (Nat.mul_pos hden (Nat.two_pow_pos _)) ?_
  have hlog : num / den < 2 ^ ((num / den).log2 + 1) := Nat.lt_log2_self
  have hsp : (num / den).log2 + 1 ≤ 53 + spacing num den := by unfold spacing; omega
  have hpow : num / den < 2 ^ (53 + spacing num den) :=
    Nat.lt_of_lt_of_le hlog (Nat.pow_le_pow_right (by decide) hsp)
  have := (Nat.div_lt_iff_lt_mul hden).1 hpow
  rw [Nat.pow_add] at this
  calc num < 2 ^ 53 * 2 ^ spacing num den * den := this
    _ = 2 ^ 53 * (den * 2 ^ spacing num den) := by
      rw [Nat.mul_assoc, Nat.mul_comm (2 ^ spacing num den) den]

/-- **Rounding**: the number nearest to `num / den` units, halves to the even neighbour, infinite
from the limit on. The sign is kept, also for zero. -/
def ofRatio (negative : Bool) (num den : Nat) : Binary64 :=
  if hden : 0 < den then
    if h : roundUnits num den < sizeLimit then
      finite negative ⟨roundUnits num den, roundUnits_representable hden h⟩
    else infinite negative
  else nan

/-- The number nearest to a whole number of units. -/
def ofUnits (n : Int) : Binary64 := ofRatio (decide (n < 0)) n.natAbs 1

/-- The number nearest to an integer, infinite when the integer is too large. -/
def ofInt (n : Int) : Binary64 := ofRatio (decide (n < 0)) (n.natAbs * unitsPerOne) 1

/-- The number nearest to an integer, if it is finite. -/
def ofInt? (n : Int) : Option Binary64 := (ofInt n).finite?

def ofNat (n : Nat) : Binary64 := ofInt n

/-- One. -/
def one : Binary64 := ofInt 1

/-- **The number nearest to a decimal** `digits · 10 ^ exponent`. Decimals that are far outside the
range of the format are settled by the number of their digits. -/
def ofDecimal (negative : Bool) (digits : Nat) (exponent : Int) : Binary64 :=
  if digits = 0 then finite negative Size.zero
  else
    let width : Int := digits.log2
    if width + 3 * exponent > 2100 ∧ 0 ≤ exponent then infinite negative
    else if 0 ≤ exponent then ofRatio negative (digits * Nat.pow 10 exponent.toNat * unitsPerOne) 1
    else if width + 3 * exponent < -1200 then finite negative Size.zero
    else ofRatio negative (digits * unitsPerOne) (Nat.pow 10 (-exponent).toNat)

end Binary64

end Milp
