import Mathlib
import Milp.Proofs.Binary64.Whole
import Milp.Proofs.Model.Ranges
import Milp.Proofs.Program.Feasible

/-!
# The best value of one column

A column by itself: rounding the bounds of an integer column inwards loses no value, and of the values that
are left the one with the largest product with the objective coefficient is known, unless there is no
value at all or no largest product.

* `admits_iff_inner` — the rounded bounds admit the same values.
* `isEmpty_iff` — `isEmpty` is said of columns that admit nothing.
* `exists_above` — the products of an unbounded column pass every number.
* `best_spec` — in all other cases `best` is admitted, and no product is larger.
-/

namespace Milp.Model.ColumnData

open Binary64 (isBelow_iff isAbove_iff)

/-- **A sound column** — its bounds are a range, and its objective coefficient is finite. -/
structure Sound (c : ColumnData) : Prop where
  range : IsRange c.lower c.upper
  finite : c.objective.isFinite = true

variable {c : ColumnData} {q : ℚ}

/-! ## Rounded bounds -/

/-- **Rounding a lower bound up** loses no value that the column may have. -/
theorem innerLower_isBelow_iff (hq : c.integer = true → ∃ k : ℤ, q = k) :
    c.innerLower.IsBelow q ↔ c.lower.IsBelow q := by
  by_cases hround : (c.integer && c.lower.isFinite) = true
  · obtain ⟨hinteger, hfinite⟩ := Bool.and_eq_true_iff.mp hround
    obtain ⟨k, rfl⟩ := hq hinteger
    obtain ⟨hceil, hvalue⟩ := Binary64.ceil_exact hfinite
    rw [innerLower, if_pos hround, isBelow_iff hceil, isBelow_iff hfinite, hvalue, Int.cast_le,
      Int.ceil_le]
  · rw [innerLower, if_neg hround]

/-- **Rounding an upper bound down** loses no value that the column may have. -/
theorem innerUpper_isAbove_iff (hq : c.integer = true → ∃ k : ℤ, q = k) :
    c.innerUpper.IsAbove q ↔ c.upper.IsAbove q := by
  by_cases hround : (c.integer && c.upper.isFinite) = true
  · obtain ⟨hinteger, hfinite⟩ := Bool.and_eq_true_iff.mp hround
    obtain ⟨k, rfl⟩ := hq hinteger
    obtain ⟨hfloor, hvalue⟩ := Binary64.floor_exact hfinite
    rw [innerUpper, if_pos hround, isAbove_iff hfloor, isAbove_iff hfinite, hvalue, Int.cast_le,
      Int.le_floor]
  · rw [innerUpper, if_neg hround]

/-- **A column admits what its rounded bounds admit.** -/
theorem admits_iff_inner : c.Admits q ↔
    c.innerLower.IsBelow q ∧ c.innerUpper.IsAbove q ∧ (c.integer = true → ∃ k : ℤ, q = k) := by
  constructor
  · intro h
    exact ⟨(innerLower_isBelow_iff h.integer).mpr h.lower,
      (innerUpper_isAbove_iff h.integer).mpr h.upper, h.integer⟩
  · rintro ⟨hlower, hupper, hinteger⟩
    exact ⟨(innerLower_isBelow_iff hinteger).mp hlower,
      (innerUpper_isAbove_iff hinteger).mp hupper, hinteger⟩

/-- A rounded lower bound is finite, or the end of the line that bounds nothing. -/
theorem innerLower_cases (hc : IsRange c.lower c.upper) :
    c.innerLower.isFinite = true ∨ c.innerLower = Binary64.negInfinity := by
  by_cases hround : (c.integer && c.lower.isFinite) = true
  · rw [innerLower, if_pos hround]
    exact .inl (Binary64.ceil_exact (Bool.and_eq_true_iff.mp hround).2).1
  · rw [innerLower, if_neg hround]
    exact hc.lo_cases

theorem innerUpper_cases (hc : IsRange c.lower c.upper) :
    c.innerUpper.isFinite = true ∨ c.innerUpper = Binary64.infinity := by
  by_cases hround : (c.integer && c.upper.isFinite) = true
  · rw [innerUpper, if_pos hround]
    exact .inl (Binary64.floor_exact (Bool.and_eq_true_iff.mp hround).2).1
  · rw [innerUpper, if_neg hround]
    exact hc.hi_cases

/-- The rounded lower bound of an integer column is whole. -/
theorem innerLower_whole (hfinite : c.innerLower.isFinite = true) (hinteger : c.integer = true) :
    ∃ k : ℤ, c.innerLower.toRat = k := by
  cases hlower : c.lower.isFinite with
  | true =>
    rw [innerLower, if_pos (by simp [hinteger, hlower])]
    exact ⟨_, (Binary64.ceil_exact hlower).2⟩
  | false =>
    rw [innerLower, if_neg (by simp [hlower]), hlower] at hfinite
    cases hfinite

theorem innerUpper_whole (hfinite : c.innerUpper.isFinite = true) (hinteger : c.integer = true) :
    ∃ k : ℤ, c.innerUpper.toRat = k := by
  cases hupper : c.upper.isFinite with
  | true =>
    rw [innerUpper, if_pos (by simp [hinteger, hupper])]
    exact ⟨_, (Binary64.floor_exact hupper).2⟩
  | false =>
    rw [innerUpper, if_neg (by simp [hupper]), hupper] at hfinite
    cases hfinite

/-! ## Columns with a value -/

/-- **The rounded bounds of a column that is not empty are a range.** -/
theorem innerRange (hc : IsRange c.lower c.upper) (h : ¬ c.isEmpty = true) :
    IsRange c.innerLower c.innerUpper := by
  have hlower := Binary64.number_of_finite_or_eq_negInfinity (innerLower_cases hc)
  have hupper := Binary64.number_of_finite_or_eq_infinity (innerUpper_cases hc)
  exact ⟨(Binary64.not_lt_iff hupper.1 hlower.1).mp h, hlower.2, hupper.2⟩

/-- Zero moved into the rounded bounds is a value of the column. -/
theorem admits_clip (hc : IsRange c.lower c.upper) (h : ¬ c.isEmpty = true) :
    (Binary64.zero.clip c.innerLower c.innerUpper).isFinite = true ∧
      c.Admits (Binary64.zero.clip c.innerLower c.innerUpper).toRat := by
  obtain ⟨hfinite, hlower, hupper⟩ := (innerRange hc h).clip (x := Binary64.zero) rfl
  refine ⟨hfinite, admits_iff_inner.mpr ⟨hlower, hupper, fun hinteger => ?_⟩⟩
  -- it is zero or one of the two bounds, and these are whole
  rcases Binary64.clip_eq Binary64.zero c.innerLower c.innerUpper with heq | heq | heq
  · exact ⟨0, by rw [heq, Binary64.toRat_zero, Int.cast_zero]⟩
  · rw [heq] at hfinite ⊢
    exact innerLower_whole hfinite hinteger
  · rw [heq] at hfinite ⊢
    exact innerUpper_whole hfinite hinteger

/-- **`isEmpty` is said of the columns that admit nothing.** -/
theorem isEmpty_iff (hc : IsRange c.lower c.upper) : c.isEmpty = true ↔ ∀ q, ¬ c.Admits q := by
  constructor
  · intro h q hq
    obtain ⟨hlower, hupper, -⟩ := admits_iff_inner.mp hq
    have hempty : c.innerUpper.lt c.innerLower = true := h
    rcases innerLower_cases hc with hlo | hlo
    · rcases innerUpper_cases hc with hhi | hhi
      · have hlt := (Binary64.lt_iff_toRat hhi hlo).mp hempty
        exact absurd hlt (not_lt.mpr (((isBelow_iff hlo).mp hlower).trans ((isAbove_iff hhi).mp hupper)))
      · rw [hhi] at hempty
        exact Binary64.not_infinity_lt _ hempty
    · rw [hlo] at hempty
      exact Binary64.not_lt_negInfinity _ hempty
  · intro h
    by_contra hempty
    exact h _ (admits_clip hc hempty).2

/-! ## The objective -/

/-- Where the upper bound is no bound, values may be moved up by whole numbers. -/
theorem Admits.add_natCast (h : c.Admits q) (hupper : c.innerUpper = Binary64.infinity) (k : ℕ) :
    c.Admits (q + k) := by
  obtain ⟨hlo, -, hinteger⟩ := admits_iff_inner.mp h
  refine admits_iff_inner.mpr ⟨hlo.mono (le_add_of_nonneg_right k.cast_nonneg), ?_, fun hint => ?_⟩
  · rw [hupper]
    exact Binary64.isAbove_infinity
  · obtain ⟨j, rfl⟩ := hinteger hint
    exact ⟨j + k, by push_cast; rfl⟩

/-- Where the lower bound is no bound, values may be moved down by whole numbers. -/
theorem Admits.sub_natCast (h : c.Admits q) (hlower : c.innerLower = Binary64.negInfinity) (k : ℕ) :
    c.Admits (q - k) := by
  obtain ⟨-, hhi, hinteger⟩ := admits_iff_inner.mp h
  refine admits_iff_inner.mpr ⟨?_, hhi.mono (sub_le_self q k.cast_nonneg), fun hint => ?_⟩
  · rw [hlower]
    exact Binary64.isBelow_negInfinity
  · obtain ⟨j, rfl⟩ := hinteger hint
    exact ⟨j - k, by push_cast; rfl⟩

theorem objective_pos_iff (hc : c.Sound) :
    Binary64.zero.lt c.objective = true ↔ 0 < c.objective.toRat := by
  rw [Binary64.lt_iff_toRat rfl hc.finite, Binary64.toRat_zero]

theorem objective_neg_iff (hc : c.Sound) :
    c.objective.lt Binary64.zero = true ↔ c.objective.toRat < 0 := by
  rw [Binary64.lt_iff_toRat hc.finite rfl, Binary64.toRat_zero]

/-- **An unbounded column that admits anything** admits values whose products pass every number. -/
theorem exists_above (hc : c.Sound) (h : c.isUnbounded = true) (hq : c.Admits q) (B : ℚ) :
    ∃ p, c.Admits p ∧ B < c.objective.toRat * p := by
  rcases Bool.or_eq_true_iff.mp h with hgrows | hgrows
  · obtain ⟨hpos, hinfinite⟩ := Bool.and_eq_true_iff.mp hgrows
    have hpos := (objective_pos_iff hc).mp hpos
    have hupper := (Binary64.isInfinite_iff_eq (innerUpper_cases hc.range) rfl).mp hinfinite
    obtain ⟨k, hk⟩ := exists_nat_gt ((B - c.objective.toRat * q) / c.objective.toRat)
    refine ⟨q + k, hq.add_natCast hupper k, ?_⟩
    have hk := (div_lt_iff₀' hpos).mp hk
    rw [mul_add]
    linarith
  · obtain ⟨hneg, hinfinite⟩ := Bool.and_eq_true_iff.mp hgrows
    have hneg := (objective_neg_iff hc).mp hneg
    have hlower := (Binary64.isInfinite_iff_eq (innerLower_cases hc.range) rfl).mp hinfinite
    obtain ⟨k, hk⟩ := exists_nat_gt ((B - c.objective.toRat * q) / -c.objective.toRat)
    refine ⟨q - k, hq.sub_natCast hlower k, ?_⟩
    have hk := (div_lt_iff₀' (neg_pos.mpr hneg)).mp hk
    rw [mul_sub]
    linarith

/-- **What it means to be best**: finite, admitted, and with no larger product at another value. -/
structure IsBest (c : ColumnData) (v : Binary64) : Prop where
  finite : v.isFinite = true
  admits : c.Admits v.toRat
  greatest : ∀ q, c.Admits q → c.objective.toRat * q ≤ c.objective.toRat * v.toRat

/-- **The best value of a column is best**, if the column is neither empty nor unbounded. -/
theorem best_spec (hc : c.Sound) (hempty : ¬ c.isEmpty = true) (hbounded : ¬ c.isUnbounded = true) :
    c.IsBest c.best := by
  have hrange := innerRange hc.range hempty
  obtain ⟨hup, hdown⟩ := not_or.mp fun h => hbounded (Bool.or_eq_true_iff.mpr h)
  by_cases hneg : c.objective.lt Binary64.zero = true
  · -- the lower bound is best
    have hfinite : c.innerLower.isFinite = true := by
      refine hrange.lo_cases.resolve_right fun hinfinite => hdown ?_
      rw [hneg, hinfinite]
      rfl
    have hnonpos := ((objective_neg_iff hc).mp hneg).le
    rw [best, if_pos hneg]
    refine ⟨hfinite, admits_iff_inner.mpr ⟨(isBelow_iff hfinite).mpr le_rfl, ?_,
      innerLower_whole hfinite⟩, fun q hq => ?_⟩
    · exact (Binary64.isAbove_toRat_iff hrange.hi_number hrange.hi_ne hfinite).mpr hrange.inOrder
    · have hle := (isBelow_iff hfinite).mp (admits_iff_inner.mp hq).1
      exact mul_le_mul_of_nonpos_left hle hnonpos
  rw [best, if_neg hneg]
  by_cases hpos : Binary64.zero.lt c.objective = true
  · -- the upper bound is best
    have hfinite : c.innerUpper.isFinite = true := by
      refine hrange.hi_cases.resolve_right fun hinfinite => hup ?_
      rw [hpos, hinfinite]
      rfl
    have hnonneg := ((objective_pos_iff hc).mp hpos).le
    rw [if_pos hpos]
    refine ⟨hfinite, admits_iff_inner.mpr ⟨?_, (isAbove_iff hfinite).mpr le_rfl,
      innerUpper_whole hfinite⟩, fun q hq => ?_⟩
    · exact (Binary64.isBelow_toRat_iff hrange.lo_number hrange.lo_ne hfinite).mpr hrange.inOrder
    · have hle := (isAbove_iff hfinite).mp (admits_iff_inner.mp hq).2.1
      exact mul_le_mul_of_nonneg_left hle hnonneg
  · -- all values are equally good
    have hzero : c.objective.toRat = 0 :=
      le_antisymm (not_lt.mp fun h => hpos ((objective_pos_iff hc).mpr h))
        (not_lt.mp fun h => hneg ((objective_neg_iff hc).mpr h))
    obtain ⟨hfinite, hadmits⟩ := admits_clip hc.range hempty
    rw [if_neg hpos]
    refine ⟨hfinite, hadmits, fun q _ => ?_⟩
    rw [hzero, zero_mul, zero_mul]

end Milp.Model.ColumnData
