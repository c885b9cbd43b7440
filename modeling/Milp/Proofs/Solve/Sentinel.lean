import Mathlib
import Milp.Proofs.Solve.Box

/-!
# What counts as infinite

A model says from which number on values count as infinite. Its linear program has no bound where one counts as
infinite; the closed form, for models without rows, looks for the infinities of the format instead. That is the same
if the model's infinity is that of the format, or if it has no infinite bounds.

* `ColumnData.SidesAgree` — both take the same sides of a column for unbounded: `sidesAgree_iff`.
* `ColumnData.HasOpenSide` — the objective grows towards a side that counts as infinite.
* `solveBox_unbounded_iff` — when the closed form answers "unbounded".
* `closed_form_agrees_iff` — all of it, for reachable models.
-/

namespace Milp

/-! ## Sizes -/

theorem Binary64.toRat_abs (x : Binary64) : x.abs.toRat = |x.toRat| := by
  have hunits : ((x.abs.units : ℤ) : ℚ) = |(x.units : ℚ)| := by
    cases x with
    | nan | infinite => simp [abs, units]
    | finite s m => cases s <;> simp [abs, units]
  rw [toRat_eq, toRat_eq, hunits, abs_div, Nat.abs_cast]

theorem Binary64.ne_infinity_of_isFinite {x : Binary64} (hx : x.isFinite = true) : x ≠ infinity := by
  rintro rfl
  cases hx

/-- A positive number is finite, or the infinity of the format. -/
theorem Binary64.finite_or_eq_infinity_of_pos {x : Binary64} (hx : zero.lt x = true) :
    x.isFinite = true ∨ x = infinity := by
  obtain ⟨a, b, -, hb, -⟩ := lt_iff.mp hx
  refine finite_or_eq_infinity (not_isNaN_of_place? hb) ?_
  rintro rfl
  exact not_lt_negInfinity _ hx

/-- Where a finite number counts as infinite, the bounds of columns are finite. -/
theorem IsBox.finite {I lo hi : Binary64} (h : IsBox I lo hi) (hI : I.isFinite = true) :
    lo.isFinite = true ∧ hi.isFinite = true := by
  obtain ⟨i, hi', -, hlimit⟩ := Binary64.isFinite_iff_place?.mp hI
  have hneg : I.neg.place? = some (-i) := by rw [Binary64.place?_neg, hi']; rfl
  obtain ⟨n, l, hn, hl, hge⟩ := Binary64.le_iff.mp h.lo_ge
  obtain ⟨l', j, hl', hj, hlt⟩ := Binary64.lt_iff.mp h.lo_lt
  obtain ⟨n', u, hn', hu, hgt⟩ := Binary64.lt_iff.mp h.hi_gt
  obtain ⟨u', k, hu', hk, hle⟩ := Binary64.le_iff.mp h.hi_le
  simp only [hneg, hi', hl, hu, Option.some.injEq] at hn hl' hj hn' hu' hk
  -- in places: −i ≤ l < i and −i < u ≤ i, and i is within the limit
  constructor
  · exact Binary64.isFinite_of_place? hl (by omega) (by omega)
  · exact Binary64.isFinite_of_place? hu (by omega) (by omega)

namespace Model

variable {m : Model} {x : Binary64}

theorem bound?_eq_none_iff : m.bound? x = none ↔ m.isInfinite x = true := by
  rw [bound?]
  split <;> simp_all

/-- **Where a finite number counts as infinite**, the numbers below it in size do not. -/
theorem isInfinite_eq_false_iff (hI : m.infinity.isFinite = true) (hx : x.isFinite = true) :
    m.isInfinite x = false ↔ |x.toRat| < m.infinity.toRat := by
  have habs : x.abs.isFinite = true := by
    cases x with
    | nan | infinite => cases hx
    | finite s m => rfl
  rw [isInfinite, Bool.eq_false_iff, ne_eq, Binary64.le_iff_toRat hI habs, Binary64.toRat_abs, not_le]

/-! ## One side of a column -/

namespace ColumnData

variable {c : ColumnData}

/-- Rounding makes no bound infinite. -/
theorem isInfinite_innerLower (c : ColumnData) : c.innerLower.isInfinite = c.lower.isInfinite := by
  by_cases hround : (c.integer && c.lower.isFinite) = true
  · have hfinite := (Bool.and_eq_true_iff.mp hround).2
    rw [innerLower, if_pos hround, Binary64.not_isInfinite_of_isFinite (Binary64.ceil_exact hfinite).1,
      Binary64.not_isInfinite_of_isFinite hfinite]
  · rw [innerLower, if_neg hround]

theorem isInfinite_innerUpper (c : ColumnData) : c.innerUpper.isInfinite = c.upper.isInfinite := by
  by_cases hround : (c.integer && c.upper.isFinite) = true
  · have hfinite := (Bool.and_eq_true_iff.mp hround).2
    rw [innerUpper, if_pos hround, Binary64.not_isInfinite_of_isFinite (Binary64.floor_exact hfinite).1,
      Binary64.not_isInfinite_of_isFinite hfinite]
  · rw [innerUpper, if_neg hround]

/-- **Both ways to solve take the same sides for unbounded**: the closed form those whose rounded bounds are infinite,
the linear program those that it has no bound for. -/
structure SidesAgree (m : Model) (c : ColumnData) : Prop where
  lower : c.innerLower.isInfinite = true ↔ m.bound? c.lower = none
  upper : c.innerUpper.isInfinite = true ↔ m.bound? c.upper = none

/-- **The objective grows towards a side of the column that counts as infinite.** -/
def HasOpenSide (m : Model) (c : ColumnData) : Prop :=
  Binary64.zero.lt c.objective = true ∧ m.isInfinite c.upper = true ∨
    c.objective.lt Binary64.zero = true ∧ m.isInfinite c.lower = true

/-- **The two ways agree** on a column if the model's infinity is that of the format, or neither bound counts as
infinite. -/
theorem sidesAgree_iff (hI : Binary64.zero.lt m.infinity = true) (hc : IsBox m.infinity c.lower c.upper) :
    c.SidesAgree m ↔
      m.infinity = Binary64.infinity ∨ m.isInfinite c.lower = false ∧ m.isInfinite c.upper = false := by
  rcases Binary64.finite_or_eq_infinity_of_pos hI with hfinite | hinfinite
  · -- the closed form finds no infinite side
    obtain ⟨hlo, hhi⟩ := hc.finite hfinite
    have hlower : c.innerLower.isInfinite = false :=
      (isInfinite_innerLower c).trans (Binary64.not_isInfinite_of_isFinite hlo)
    have hupper : c.innerUpper.isInfinite = false :=
      (isInfinite_innerUpper c).trans (Binary64.not_isInfinite_of_isFinite hhi)
    rw [or_iff_right (Binary64.ne_infinity_of_isFinite hfinite)]
    constructor
    · intro h
      constructor
      · simpa [hlower, bound?_eq_none_iff] using h.lower
      · simpa [hupper, bound?_eq_none_iff] using h.upper
    · rintro ⟨hlo, hhi⟩
      exact ⟨by simp [hlower, bound?_eq_none_iff, hlo], by simp [hupper, bound?_eq_none_iff, hhi]⟩
  · refine iff_of_true ⟨?_, ?_⟩ (.inl hinfinite)
    · rw [bound?_eq_none_iff, isInfinite_eq hinfinite, isInfinite_innerLower]
    · rw [bound?_eq_none_iff, isInfinite_eq hinfinite, isInfinite_innerUpper]

/-- The closed form finds a column unbounded if it has an open side and the model's infinity is that of the format. -/
theorem isUnbounded_iff (hI : Binary64.zero.lt m.infinity = true) (hc : IsBox m.infinity c.lower c.upper) :
    c.isUnbounded = true ↔ m.infinity = Binary64.infinity ∧ c.HasOpenSide m := by
  rw [isUnbounded, Bool.or_eq_true, Bool.and_eq_true, Bool.and_eq_true, isInfinite_innerLower, isInfinite_innerUpper]
  rcases Binary64.finite_or_eq_infinity_of_pos hI with hfinite | hinfinite
  · obtain ⟨hlo, hhi⟩ := hc.finite hfinite
    simp [Binary64.not_isInfinite_of_isFinite hlo, Binary64.not_isInfinite_of_isFinite hhi,
      Binary64.ne_infinity_of_isFinite hfinite]
  · rw [HasOpenSide, isInfinite_eq hinfinite, isInfinite_eq hinfinite]
    exact (and_iff_right hinfinite).symm

/-- **A best value does not count as infinite** in a column where the two ways agree. -/
theorem isInfinite_of_isBest (hI : Binary64.zero.lt m.infinity = true) (hc : IsBox m.infinity c.lower c.upper)
    (hagree : c.SidesAgree m) (h : c.IsBest x) : m.isInfinite x = false := by
  rcases Binary64.finite_or_eq_infinity_of_pos hI with hfinite | hinfinite
  · obtain ⟨hlo, hhi⟩ := hc.finite hfinite
    obtain ⟨hlower, hupper⟩ :=
      ((sidesAgree_iff hI hc).mp hagree).resolve_left (Binary64.ne_infinity_of_isFinite hfinite)
    have hlower := abs_lt.mp ((isInfinite_eq_false_iff hfinite hlo).mp hlower)
    have hupper := abs_lt.mp ((isInfinite_eq_false_iff hfinite hhi).mp hupper)
    -- it lies between two bounds that are smaller in size than infinity
    have hge := (Binary64.isBelow_iff hlo).mp h.admits.lower
    have hle := (Binary64.isAbove_iff hhi).mp h.admits.upper
    exact (isInfinite_eq_false_iff hfinite h.finite).mpr
      (abs_lt.mpr ⟨hlower.1.trans_le hge, hle.trans_lt hupper.2⟩)
  · rw [isInfinite_eq hinfinite]
    exact Binary64.not_isInfinite_of_isFinite h.finite

end ColumnData

/-! ## The closed form -/

/-- **When the closed form answers "unbounded"**: no column is empty, the objective grows towards a side that counts
as infinite, and it is the infinity of the format that counts. -/
theorem solveBox_unbounded_iff (hm : m.WellFormed) (hI : Binary64.zero.lt m.infinity = true) :
    m.solveBox.status = .unbounded ↔ m.infinity = Binary64.infinity ∧
      m.columnData.any ColumnData.isEmpty = false ∧ ∃ c ∈ m.columnData, c.HasOpenSide m := by
  have hunbounded : m.columnData.any ColumnData.isUnbounded = true ↔
      m.infinity = Binary64.infinity ∧ ∃ c ∈ m.columnData, c.HasOpenSide m := by
    rw [List.any_eq_true]
    constructor
    · rintro ⟨c, hc, h⟩
      obtain ⟨hinfinite, hopen⟩ := (ColumnData.isUnbounded_iff hI (hm.isBox hI hc)).mp h
      exact ⟨hinfinite, c, hc, hopen⟩
    · rintro ⟨hinfinite, c, hc, hopen⟩
      exact ⟨c, hc, (ColumnData.isUnbounded_iff hI (hm.isBox hI hc)).mpr ⟨hinfinite, hopen⟩⟩
  unfold solveBox
  by_cases hempty : m.columnData.any ColumnData.isEmpty = true
  · simp [hempty]
  · rw [if_neg hempty, and_left_comm, ← hunbounded]
    by_cases hgrows : m.columnData.any ColumnData.isUnbounded = true
    · simp [hempty, hgrows]
    · simp [hgrows]

/-- **The values of an optimal point are best**, column by column. -/
theorem exists_isBest_of_optimal (hm : m.WellFormed) (hI : Binary64.zero.lt m.infinity = true)
    (h : m.solveBox.status = .optimal) : ∀ v ∈ m.solveBox.solution, ∃ c ∈ m.columnData, c.IsBest v := by
  unfold solveBox at h ⊢
  split at h
  · cases h
  rename_i hempty
  split at h
  · cases h
  rename_i hgrows
  rw [if_neg hempty, if_neg hgrows]
  intro v hv
  obtain ⟨c, hc, rfl⟩ := List.mem_map.mp hv
  exact ⟨c, hc, forall_isBest (hm.sound_columns hI) hempty hgrows c hc⟩

/-- **Where the closed form and the linear program agree on what is unbounded.** In a reachable model with a positive
infinity they take the same sides of all columns for unbounded if and only if that is the infinity of the format, or
no bound of a column counts as infinite. Where they agree, the closed form answers "unbounded" if no column is empty
and the objective grows towards a side that counts as infinite, and no value of an optimal point counts as infinite.
With a finite infinity it never answers "unbounded". -/
theorem closed_form_agrees_iff (hm : m.Reachable) (hI : Binary64.zero.lt m.infinity = true) :
    ((∀ c ∈ m.columnData, c.SidesAgree m) ↔ m.infinity = Binary64.infinity ∨
      ∀ c ∈ m.columnData, m.isInfinite c.lower = false ∧ m.isInfinite c.upper = false) ∧
    ((∀ c ∈ m.columnData, c.SidesAgree m) →
      (m.columnData.any ColumnData.isEmpty = false → (∃ c ∈ m.columnData, c.HasOpenSide m) →
        m.solveBox.status = .unbounded) ∧
      (m.solveBox.status = .optimal → ∀ v ∈ m.solveBox.solution, m.isInfinite v = false)) ∧
    (m.infinity ≠ Binary64.infinity → m.solveBox.status ≠ .unbounded) := by
  have hwf := hm.wellFormed
  have hagree : (∀ c ∈ m.columnData, c.SidesAgree m) ↔ m.infinity = Binary64.infinity ∨
      ∀ c ∈ m.columnData, m.isInfinite c.lower = false ∧ m.isInfinite c.upper = false := by
    have hsides : ∀ c ∈ m.columnData, (c.SidesAgree m ↔
        m.infinity = Binary64.infinity ∨ m.isInfinite c.lower = false ∧ m.isInfinite c.upper = false) :=
      fun c hc => ColumnData.sidesAgree_iff hI (hwf.isBox hI hc)
    refine (forall₂_congr hsides).trans ?_
    by_cases hinfinite : m.infinity = Binary64.infinity
    · simp [hinfinite]
    · simp [hinfinite]
  refine ⟨hagree, fun h => ⟨?_, ?_⟩, fun hne hunbounded => hne ((solveBox_unbounded_iff hwf hI).mp hunbounded).1⟩
  · rintro hempty ⟨c, hc, hopen⟩
    refine (solveBox_unbounded_iff hwf hI).mpr ⟨?_, hempty, c, hc, hopen⟩
    -- the column has a side that counts as infinite
    refine (hagree.mp h).resolve_right fun hnone => ?_
    rcases hopen with ⟨-, hupper⟩ | ⟨-, hlower⟩
    · rw [(hnone c hc).2] at hupper
      cases hupper
    · rw [(hnone c hc).1] at hlower
      cases hlower
  · intro hoptimal v hv
    obtain ⟨c, hc, hbest⟩ := exists_isBest_of_optimal hwf hI hoptimal v hv
    exact ColumnData.isInfinite_of_isBest hI (hwf.isBox hI hc) (h c hc) hbest

/-- One column from zero to infinity with the objective 1, where infinity is that of the format: the two ways agree,
and the closed form answers "unbounded". -/
theorem closed_form_agrees_of_infinite :
    let one := Binary64.one
    let m : Model := { blank 1 0 Binary64.infinity with objective := [one] }
    m.Reachable ∧ (∀ c ∈ m.columnData, c.SidesAgree m) ∧ m.solveBox.status = .unbounded := by
  intro one m
  have hm : m.Reachable := by
    refine ⟨.digest,
      [.create (.int 1) (.int 0) (.float Binary64.infinity), .edit 0 (.objective (.list [.int 1]))], ?_⟩
    decide +kernel
  obtain ⟨hagree, hright, -⟩ := closed_form_agrees_iff hm zero_lt_infinity
  have hsides : ∀ c ∈ m.columnData, c.SidesAgree m := hagree.mpr (.inl rfl)
  refine ⟨hm, hsides, (hright hsides).1 (by decide +kernel) ⟨_, List.mem_cons_self, .inl ⟨?_, ?_⟩⟩⟩
  · decide +kernel
  · decide +kernel

/-- **The closed form takes a finite infinity for a bound.** One column from zero to 100 with the objective 1, where
100 counts as infinite: the linear program has no upper bound, and the closed form answers "optimal" with the
value 100. -/
theorem finite_infinity_taken_for_bound :
    let one := Binary64.one
    let I := Binary64.ofInt 100
    let m : Model := { blank 1 0 I with objective := [one] }
    m.Reachable ∧ Binary64.zero.lt m.infinity = true ∧
      m.program.columns = [⟨some Binary64.zero, none, false⟩] ∧ (∃ c ∈ m.columnData, c.HasOpenSide m) ∧
      m.columnData.any ColumnData.isEmpty = false ∧
      m.solveBox.status = .optimal ∧ m.solveBox.solution = [I] ∧ m.isInfinite I = true := by
  intro one I m
  refine ⟨⟨.digest, [.create (.int 1) (.int 0) (.float I), .edit 0 (.objective (.list [.int 1]))], ?_⟩, ?_, ?_,
    ⟨_, List.mem_cons_self, .inl ⟨?_, ?_⟩⟩, ?_, ?_, ?_, ?_⟩
  all_goals decide +kernel

end Model

end Milp
