import Milp.Proofs.Row.Checks

/-!
# Rows that agree

The row cache hands out a stored row for every row that agrees with it: the same indices, and coefficients
that are equal as numbers. Such rows can differ in the sign of a zero and in nothing else that matters to a
model.

* `Row.Alike` — what `Row.agrees` decides; symmetric, transitive, and reflexive on rows that fit.
* `Alike.fits` and `Alike.maxIndex_eq` — rows that agree fit the same widths and need the same columns.
* `Fits.checkPattern_eq` — of a row that fits some width, only the largest index is left to check.
-/

namespace Milp

/-! ## Equal numbers -/

namespace Binary64

theorem same_comm (x y : Binary64) : x.same y = y.same x := by
  rw [Bool.eq_iff_iff, same_iff, same_iff]
  constructor
  · rintro ⟨a, hx, hy⟩
    exact ⟨a, hy, hx⟩
  · rintro ⟨a, hy, hx⟩
    exact ⟨a, hx, hy⟩

theorem same_trans {x y z : Binary64} (hxy : x.same y = true) (hyz : y.same z = true) :
    x.same z = true := by
  obtain ⟨a, hx, hy⟩ := same_iff.mp hxy
  obtain ⟨b, hy', hz⟩ := same_iff.mp hyz
  rw [hy, Option.some.injEq] at hy'
  exact same_iff.mpr ⟨a, hx, hy' ▸ hz⟩

/-- The finite numbers are those strictly between the ends of the line. -/
theorem isFinite_iff_place? {x : Binary64} :
    x.isFinite = true ↔ ∃ a, x.place? = some a ∧ -(sizeLimit : Int) < a ∧ a < sizeLimit := by
  constructor
  · intro h
    exact ⟨x.units, place?_of_isFinite h, units_lt_sizeLimit h⟩
  · rintro ⟨a, ha, hlower, hupper⟩
    exact isFinite_of_place? ha hlower hupper

theorem same_self {x : Binary64} (h : x.isFinite = true) : x.same x = true :=
  same_iff.mpr ⟨x.units, place?_of_isFinite h, place?_of_isFinite h⟩

/-- A number that equals a finite one is finite. -/
theorem isFinite_of_same {x y : Binary64} (h : x.same y = true) (hx : x.isFinite = true) :
    y.isFinite = true := by
  obtain ⟨a, hxa, hya⟩ := same_iff.mp h
  obtain ⟨b, hxb, hlower, hupper⟩ := isFinite_iff_place?.mp hx
  rw [hxa, Option.some.injEq] at hxb
  subst hxb
  exact isFinite_iff_place?.mpr ⟨a, hya, hlower, hupper⟩

end Binary64

theorem sameNumbers_symm {xs ys : List Binary64} (h : sameNumbers xs ys = true) :
    sameNumbers ys xs = true := by
  fun_induction sameNumbers xs ys with
  | case1 => rfl
  | case2 x xs y ys ih =>
    obtain ⟨hxy, hrest⟩ := Bool.and_eq_true_iff.mp h
    rw [Binary64.same_comm] at hxy
    exact Bool.and_eq_true_iff.mpr ⟨hxy, ih hrest⟩
  | case3 => cases h

theorem sameNumbers_trans {xs ys zs : List Binary64} (hxy : sameNumbers xs ys = true)
    (hyz : sameNumbers ys zs = true) : sameNumbers xs zs = true := by
  induction xs generalizing ys zs with
  | nil =>
    cases ys with
    | nil => exact hyz
    | cons y ys => cases hxy
  | cons x xs ih =>
    cases ys with
    | nil => cases hxy
    | cons y ys =>
      cases zs with
      | nil => cases hyz
      | cons z zs =>
        obtain ⟨hx, hxs⟩ := Bool.and_eq_true_iff.mp hxy
        obtain ⟨hy, hys⟩ := Bool.and_eq_true_iff.mp hyz
        exact Bool.and_eq_true_iff.mpr ⟨Binary64.same_trans hx hy, ih hxs hys⟩

theorem sameNumbers_self {xs : List Binary64} (h : ∀ x ∈ xs, x.isFinite = true) :
    sameNumbers xs xs = true := by
  induction xs with
  | nil => rfl
  | cons x xs ih =>
    obtain ⟨hx, hxs⟩ := List.forall_mem_cons.mp h
    exact Bool.and_eq_true_iff.mpr ⟨Binary64.same_self hx, ih hxs⟩

theorem finite_of_sameNumbers {xs ys : List Binary64} (h : sameNumbers xs ys = true)
    (hxs : ∀ x ∈ xs, x.isFinite = true) : ∀ y ∈ ys, y.isFinite = true := by
  fun_induction sameNumbers xs ys with
  | case1 => exact hxs
  | case2 x xs y ys ih =>
    obtain ⟨hxy, hrest⟩ := Bool.and_eq_true_iff.mp h
    obtain ⟨hx, hxs⟩ := List.forall_mem_cons.mp hxs
    exact List.forall_mem_cons.mpr ⟨Binary64.isFinite_of_same hxy hx, ih hrest hxs⟩
  | case3 => cases h

/-- Numbers other than zero that are equal, position by position, are the same numbers. -/
theorem eq_of_sameNumbers {xs ys : List Binary64} (h : sameNumbers xs ys = true)
    (hnonzero : ∀ y ∈ ys, y.same Binary64.zero = false) : xs = ys := by
  fun_induction sameNumbers xs ys with
  | case1 => rfl
  | case2 x xs y ys ih =>
    obtain ⟨hxy, hrest⟩ := Bool.and_eq_true_iff.mp h
    obtain ⟨hy, hys⟩ := List.forall_mem_cons.mp hnonzero
    rcases Binary64.eq_or_zero_of_same hxy with rfl | ⟨-, hzero⟩
    · rw [ih hrest hys]
    · rw [hzero] at hy
      cases hy
  | case3 => cases h

/-! ## Equal rows -/

namespace Row

/-- **`r.Alike s`** — the same indices in the same order, and numerically the same coefficients. -/
structure Alike (r s : Row) : Prop where
  indices : r.indices = s.indices
  coeffs : sameNumbers r.coeffs s.coeffs = true

theorem alike_of_agrees {r s : Row} (h : r.agrees s.indices s.coeffs = true) : r.Alike s :=
  ⟨(agrees_iff.mp h).1, (agrees_iff.mp h).2⟩

variable {r s t : Row}

theorem Alike.symm (h : r.Alike s) : s.Alike r :=
  ⟨h.indices.symm, sameNumbers_symm h.coeffs⟩

theorem Alike.trans (h : r.Alike s) (h' : s.Alike t) : r.Alike t :=
  ⟨h.indices.trans h'.indices, sameNumbers_trans h.coeffs h'.coeffs⟩

/-- A row that fits agrees with itself. A row with NaN does not. -/
theorem Fits.alike {n : Nat} (h : r.Fits n) : r.Alike r := ⟨rfl, sameNumbers_self h.finite⟩

theorem Alike.maxIndex_eq (h : r.Alike s) : r.maxIndex = s.maxIndex := by
  rw [r.maxIndex_eq, s.maxIndex_eq, h.indices]

/-- **Rows that agree fit the same widths.** -/
theorem Alike.fits (h : r.Alike s) {n : Nat} (hr : r.Fits n) : s.Fits n where
  lengths := by
    have hcoeffs := length_eq_of_sameNumbers h.coeffs
    have hlengths := hr.lengths
    rw [h.indices] at hlengths
    omega
  inRange := h.indices ▸ hr.inRange
  distinct := h.indices ▸ hr.distinct
  finite := finite_of_sameNumbers h.coeffs hr.finite

/-- **Rows without zeros that agree are one row.** -/
theorem Alike.eq_of_nonzero (h : r.Alike s) (hnonzero : ∀ c ∈ s.coeffs, c.same Binary64.zero = false) : r = s := by
  exact Row.ext h.indices (eq_of_sameNumbers h.coeffs hnonzero)

/-! ## Widths -/

theorem maxIndex_lt_iff {k : Nat} : r.maxIndex < k ↔ ∀ i ∈ r.indices, i.toInt < k := by
  rw [r.maxIndex_eq]
  exact largest_lt_iff (by omega)

/-- **The largest index decides** for how many columns a checked row fits. -/
theorem Fits.of_maxIndex_lt {n k : Nat} (h : r.Fits n) (hmax : r.maxIndex < k) : r.Fits k where
  lengths := h.lengths
  inRange := fun i hi => ⟨(h.inRange i hi).1, maxIndex_lt_iff.mp hmax i hi⟩
  distinct := h.distinct
  finite := h.finite

/-- **Of a row that fits some width only the largest index is left to check**: if that is too large, the check
refuses the row for its range, and otherwise it accepts it. -/
theorem Fits.checkPattern_eq {n : Nat} (h : r.Fits n) (k : Nat) (row : Arg) :
    checkPattern r.indices r.coeffs k row =
      if r.maxIndex < k then .ok ()
      else .error (.indexRange (.int k) (smallest r.indices) r.maxIndex row) := by
  by_cases hmax : r.maxIndex < k
  · rw [if_pos hmax]
    exact checkPattern_eq_ok_iff.mpr (h.of_maxIndex_lt hmax)
  · -- the empty row fits every width, so there is an index, and the range is looked at before all else
    have hne : r.indices ≠ [] := by
      intro hempty
      apply hmax
      rw [r.maxIndex_eq, hempty]
      show (-1 : Int) < k
      omega
    have hhigh : (k : Int) ≤ largest r.indices := r.maxIndex_eq ▸ Int.not_lt.mp hmax
    rw [if_neg hmax, checkPattern, if_neg (Decidable.not_not.mpr h.lengths),
      if_neg (by simpa using hne), if_pos (Or.inr hhigh), r.maxIndex_eq]

end Row

end Milp
