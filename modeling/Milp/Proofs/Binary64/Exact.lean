import Mathlib
import Milp.Exact.Solver
import Milp.Proofs.Binary64.Order

/-!
# Exact values

Every finite number of the format is a rational. Comparisons of finite numbers are comparisons of these, and
any number but NaN bounds a set of rationals from below or from above.

* `toRat_eq` — the exact value as a quotient of units.
* `le_iff_toRat`, `lt_iff_toRat`, `same_iff_toRat` — comparisons of finite numbers.
* `IsBelow` and `IsAbove` — a number as a bound; infinities on their own side bound nothing.
-/

namespace Milp.Binary64

/-! ## Finite numbers -/

theorem toRat_eq (x : Binary64) : x.toRat = x.units / unitsPerOne :=
  Rat.mkRat_eq_div _ _

theorem unitsPerOne_cast_pos : (0 : ℚ) < unitsPerOne := by
  exact_mod_cast unitsPerOne_pos

@[simp] theorem toRat_zero : zero.toRat = 0 := by
  rw [toRat_eq]
  show ((0 : ℤ) : ℚ) / unitsPerOne = 0
  rw [Int.cast_zero, zero_div]

theorem toRat_le_iff {x y : Binary64} : x.toRat ≤ y.toRat ↔ x.units ≤ y.units := by
  rw [toRat_eq, toRat_eq, div_le_div_iff_of_pos_right unitsPerOne_cast_pos, Int.cast_le]

theorem toRat_lt_iff {x y : Binary64} : x.toRat < y.toRat ↔ x.units < y.units := by
  rw [toRat_eq, toRat_eq, div_lt_div_iff_of_pos_right unitsPerOne_cast_pos, Int.cast_lt]

theorem toRat_inj {x y : Binary64} : x.toRat = y.toRat ↔ x.units = y.units := by
  rw [toRat_eq, toRat_eq, div_left_inj' unitsPerOne_cast_pos.ne', Int.cast_inj]

/-- **Comparisons of finite numbers** are those of their exact values. -/
theorem le_iff_toRat {x y : Binary64} (hx : x.isFinite = true) (hy : y.isFinite = true) :
    x.le y = true ↔ x.toRat ≤ y.toRat := by
  rw [toRat_le_iff, le_iff, place?_of_isFinite hx, place?_of_isFinite hy]
  simp

theorem lt_iff_toRat {x y : Binary64} (hx : x.isFinite = true) (hy : y.isFinite = true) :
    x.lt y = true ↔ x.toRat < y.toRat := by
  rw [toRat_lt_iff, lt_iff, place?_of_isFinite hx, place?_of_isFinite hy]
  simp

theorem same_iff_toRat {x y : Binary64} (hx : x.isFinite = true) (hy : y.isFinite = true) :
    x.same y = true ↔ x.toRat = y.toRat := by
  rw [toRat_inj, same_iff, place?_of_isFinite hx, place?_of_isFinite hy]
  simp [eq_comm]

/-! ## Kinds of numbers -/

theorem finite_or_eq_negInfinity {x : Binary64} (hnan : x.isNaN = false) (hne : x ≠ infinity) :
    x.isFinite = true ∨ x = negInfinity := by
  cases x with
  | nan => cases hnan
  | finite s m => exact .inl rfl
  | infinite s =>
    cases s with
    | false => exact absurd rfl hne
    | true => exact .inr rfl

theorem finite_or_eq_infinity {x : Binary64} (hnan : x.isNaN = false) (hne : x ≠ negInfinity) :
    x.isFinite = true ∨ x = infinity := by
  cases x with
  | nan => cases hnan
  | finite s m => exact .inl rfl
  | infinite s =>
    cases s with
    | false => exact .inr rfl
    | true => exact absurd rfl hne

/-- What is finite or minus infinity is a number other than plus infinity. -/
theorem number_of_finite_or_eq_negInfinity {x : Binary64}
    (h : x.isFinite = true ∨ x = negInfinity) : x.isNaN = false ∧ x ≠ infinity := by
  rcases h with h | rfl
  · cases x with
    | finite s m => exact ⟨rfl, nofun⟩
    | nan => cases h
    | infinite s => cases h
  · exact ⟨rfl, by decide⟩

theorem number_of_finite_or_eq_infinity {x : Binary64}
    (h : x.isFinite = true ∨ x = infinity) : x.isNaN = false ∧ x ≠ negInfinity := by
  rcases h with h | rfl
  · cases x with
    | finite s m => exact ⟨rfl, nofun⟩
    | nan => cases h
    | infinite s => cases h
  · exact ⟨rfl, by decide⟩

theorem not_isInfinite_of_isFinite {x : Binary64} (h : x.isFinite = true) : x.isInfinite = false := by
  cases x with
  | finite s m => rfl
  | nan => cases h
  | infinite s => cases h

/-- Of the numbers that are finite or at one end of the line, the end is infinite. -/
theorem isInfinite_iff_eq {x y : Binary64} (h : x.isFinite = true ∨ x = y)
    (hy : y.isInfinite = true) : x.isInfinite = true ↔ x = y := by
  constructor
  · intro hx
    refine h.resolve_left fun hfinite => ?_
    rw [not_isInfinite_of_isFinite hfinite] at hx
    cases hx
  · rintro rfl
    exact hy

/-! ## Bounds -/

/-- **`x.IsBelow q`** — the rational `q` keeps to the lower bound `x`. -/
def IsBelow (x : Binary64) (q : ℚ) : Prop :=
  match x with
  | nan => False
  | infinite s => s = true
  | finite s m => (finite s m).toRat ≤ q

/-- **`x.IsAbove q`** — the rational `q` keeps to the upper bound `x`. -/
def IsAbove (x : Binary64) (q : ℚ) : Prop :=
  match x with
  | nan => False
  | infinite s => s = false
  | finite s m => q ≤ (finite s m).toRat

variable {x y : Binary64} {q : ℚ}

theorem isBelow_iff (h : x.isFinite = true) : x.IsBelow q ↔ x.toRat ≤ q := by
  cases x with
  | finite s m => exact Iff.rfl
  | nan => cases h
  | infinite s => cases h

theorem isAbove_iff (h : x.isFinite = true) : x.IsAbove q ↔ q ≤ x.toRat := by
  cases x with
  | finite s m => exact Iff.rfl
  | nan => cases h
  | infinite s => cases h

theorem isBelow_negInfinity : negInfinity.IsBelow q := rfl

theorem isAbove_infinity : infinity.IsAbove q := rfl

/-- What keeps to a lower bound may grow. -/
theorem IsBelow.mono {q' : ℚ} (h : x.IsBelow q) (hq : q ≤ q') : x.IsBelow q' := by
  cases x with
  | nan => exact h
  | infinite s => exact h
  | finite s m => exact le_trans h hq

/-- What keeps to an upper bound may shrink. -/
theorem IsAbove.mono {q' : ℚ} (h : x.IsAbove q) (hq : q' ≤ q) : x.IsAbove q' := by
  cases x with
  | nan => exact h
  | infinite s => exact h
  | finite s m => exact le_trans hq h

/-- **A number of the format keeps to a lower bound** if it compares so. -/
theorem isBelow_toRat_iff (hnan : x.isNaN = false) (hne : x ≠ infinity) (hy : y.isFinite = true) :
    x.IsBelow y.toRat ↔ x.le y = true := by
  rcases finite_or_eq_negInfinity hnan hne with hfinite | rfl
  · rw [isBelow_iff hfinite, le_iff_toRat hfinite hy]
  · refine iff_of_true isBelow_negInfinity ((not_lt_iff ?_ rfl).mp (not_lt_negInfinity y))
    exact not_isNaN_of_place? (place?_of_isFinite hy)

/-- **A number of the format keeps to an upper bound** if it compares so. -/
theorem isAbove_toRat_iff (hnan : x.isNaN = false) (hne : x ≠ negInfinity) (hy : y.isFinite = true) :
    x.IsAbove y.toRat ↔ y.le x = true := by
  rcases finite_or_eq_infinity hnan hne with hfinite | rfl
  · rw [isAbove_iff hfinite, le_iff_toRat hy hfinite]
  · refine iff_of_true isAbove_infinity ((not_lt_iff rfl ?_).mp (not_infinity_lt y))
    exact not_isNaN_of_place? (place?_of_isFinite hy)

/-- A bound that is finite or infinite on its own side keeps zero out if zero lies beyond it. -/
theorem isBelow_zero_iff (hnan : x.isNaN = false) (hne : x ≠ infinity) :
    x.IsBelow 0 ↔ ¬ zero.lt x = true := by
  rw [not_lt_iff rfl hnan, ← isBelow_toRat_iff hnan hne rfl, toRat_zero]

theorem isAbove_zero_iff (hnan : x.isNaN = false) (hne : x ≠ negInfinity) :
    x.IsAbove 0 ↔ ¬ x.lt zero = true := by
  rw [not_lt_iff hnan rfl, ← isAbove_toRat_iff hnan hne rfl, toRat_zero]

end Milp.Binary64
