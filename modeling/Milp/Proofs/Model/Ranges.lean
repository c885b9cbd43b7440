import Mathlib
import Milp.Proofs.Binary64.Exact
import Milp.Proofs.Model.WellFormed

/-!
# Ranges

Where infinity is that of the format, the bounds of columns are ranges, like those of rows: in order, each
finite or infinite on its own side.

* `IsRange.lo_cases` and `IsRange.hi_cases` — the two kinds of either bound.
* `IsRange.clip` — a number moved into a range is finite and keeps to it.
* `WellFormed.isRange` — the columns of a well-formed model.
-/

namespace Milp

open Binary64 (finite_or_eq_negInfinity finite_or_eq_infinity isBelow_toRat_iff isAbove_toRat_iff)

/-! ## Bounds -/

namespace IsRange

variable {lo hi : Binary64}

theorem lo_number (h : IsRange lo hi) : lo.isNaN = false :=
  (Binary64.not_isNaN_of_le h.inOrder).1

theorem hi_number (h : IsRange lo hi) : hi.isNaN = false :=
  (Binary64.not_isNaN_of_le h.inOrder).2

theorem lo_cases (h : IsRange lo hi) : lo.isFinite = true ∨ lo = Binary64.negInfinity :=
  finite_or_eq_negInfinity h.lo_number h.lo_ne

theorem hi_cases (h : IsRange lo hi) : hi.isFinite = true ∨ hi = Binary64.infinity :=
  finite_or_eq_infinity h.hi_number h.hi_ne

/-- Bounds that are the same number are finite. -/
theorem finite_of_same (h : IsRange lo hi) (hsame : lo.same hi = true) :
    lo.isFinite = true ∧ hi.isFinite = true := by
  obtain ⟨a, hlo, hhi⟩ := Binary64.same_iff.mp hsame
  constructor
  · refine h.lo_cases.resolve_right fun hinfinite => h.hi_ne ?_
    rw [hinfinite, Binary64.place?_eq_lower_end_iff.mpr rfl, Option.some.injEq] at hlo
    rw [← hlo] at hhi
    exact Binary64.place?_eq_lower_end_iff.mp hhi
  · refine h.hi_cases.resolve_right fun hinfinite => h.lo_ne ?_
    rw [hinfinite, Binary64.place?_eq_upper_end_iff.mpr rfl, Option.some.injEq] at hhi
    rw [← hhi] at hlo
    exact Binary64.place?_eq_upper_end_iff.mp hlo

/-- **A finite number moved into a range** is finite, and keeps to both bounds. -/
theorem clip (h : IsRange lo hi) {x : Binary64} (hx : x.isFinite = true) :
    (x.clip lo hi).isFinite = true ∧ lo.IsBelow (x.clip lo hi).toRat ∧
      hi.IsAbove (x.clip lo hi).toRat := by
  obtain ⟨l, u, hl, hu, hle⟩ := Binary64.le_iff.mp h.inOrder
  have hclip := Binary64.place?_clip (Binary64.place?_of_isFinite hx) hl hu
  have hx := Binary64.units_lt_sizeLimit hx
  -- neither bound is at the wrong end of the line, so what lies between them is finite
  have hlower : l < sizeLimit := by
    refine lt_of_le_of_ne (Binary64.place?_bounds hl).2 fun heq => h.lo_ne ?_
    exact Binary64.place?_eq_upper_end_iff.mp (heq ▸ hl)
  have hupper : -(sizeLimit : ℤ) < u := by
    refine lt_of_le_of_ne (Binary64.place?_bounds hu).1 fun heq => h.hi_ne ?_
    exact Binary64.place?_eq_lower_end_iff.mp (heq ▸ hu)
  have hfinite := Binary64.isFinite_of_place? hclip (by omega) (by omega)
  refine ⟨hfinite, ?_, ?_⟩
  · rw [isBelow_toRat_iff h.lo_number h.lo_ne hfinite]
    exact Binary64.le_iff.mpr ⟨l, _, hl, hclip, by omega⟩
  · rw [isAbove_toRat_iff h.hi_number h.hi_ne hfinite]
    exact Binary64.le_iff.mpr ⟨_, u, hclip, hu, by omega⟩

end IsRange

/-- **A box is a range**, whatever counts as infinite. -/
theorem IsBox.isRange {I lo hi : Binary64} (h : IsBox I lo hi) : IsRange lo hi where
  inOrder := h.inOrder
  lo_ne := by
    rintro rfl
    exact Binary64.not_infinity_lt _ h.lo_lt
  hi_ne := by
    rintro rfl
    exact Binary64.not_lt_negInfinity _ h.hi_gt

namespace Model

variable {m : Model}

theorem isInfinite_eq (hI : m.infinity = Binary64.infinity) (x : Binary64) :
    m.isInfinite x = x.isInfinite := by
  rw [isInfinite, hI, Bool.eq_iff_iff, Binary64.infinity_le_abs_iff]

/-! ## Columns of a model -/

theorem mem_zip_of_mem_columnData {c : ColumnData} (h : c ∈ m.columnData) :
    (c.lower, c.upper) ∈ m.lower.zip m.upper ∧ c.objective ∈ m.objective := by
  unfold columnData at h
  generalize m.lower = los at *
  generalize m.upper = his at *
  generalize m.objective = cs at *
  generalize m.integer = bs at *
  fun_induction zipColumns los his cs bs with
  | case1 lo los hi his c' cs b bs ih =>
    rcases List.mem_cons.mp h with rfl | h
    · exact ⟨List.mem_cons_self, List.mem_cons_self⟩
    · obtain ⟨hzip, hobjective⟩ := ih h
      exact ⟨List.mem_cons_of_mem _ hzip, List.mem_cons_of_mem _ hobjective⟩
  | case2 => cases h

/-- The columns of a model have its objective. -/
theorem WellFormed.map_objective (hm : m.WellFormed) :
    m.columnData.map ColumnData.objective = m.objective := by
  have hlower := hm.lower_length.trans hm.objective_length.symm
  have hupper := hm.upper_length.trans hm.objective_length.symm
  have hinteger := hm.integer_length.trans hm.objective_length.symm
  unfold columnData
  generalize m.lower = los at *
  generalize m.upper = his at *
  generalize m.objective = cs at *
  generalize m.integer = bs at *
  fun_induction zipColumns los his cs bs with
  | case1 lo los hi his c cs b bs ih =>
    simp only [List.length_cons, Nat.add_right_cancel_iff] at hlower hupper hinteger
    rw [List.map_cons, ih hlower hupper hinteger]
  | case2 los his cs bs hsome =>
    -- one of the four lists has ended, so all have
    have hnil : cs = [] := by
      cases cs with
      | nil => rfl
      | cons c cs =>
        obtain ⟨lo, los, rfl⟩ := List.exists_cons_of_length_eq_add_one hlower
        obtain ⟨hi, his, rfl⟩ := List.exists_cons_of_length_eq_add_one hupper
        obtain ⟨b, bs, rfl⟩ := List.exists_cons_of_length_eq_add_one hinteger
        exact (hsome _ _ _ _ _ _ _ _ rfl rfl rfl rfl).elim
    rw [hnil]
    rfl

/-- Zero lies below infinity. -/
theorem zero_lt_infinity : Binary64.zero.lt Binary64.infinity = true :=
  Binary64.lt_iff.mpr ⟨0, sizeLimit, rfl, rfl, by exact_mod_cast sizeLimit_pos⟩

/-- The bounds of the columns are boxes. -/
theorem WellFormed.isBox (hm : m.WellFormed) (hI : Binary64.zero.lt m.infinity = true) {c : ColumnData}
    (hc : c ∈ m.columnData) : IsBox m.infinity c.lower c.upper :=
  hm.boxes hI _ (mem_zip_of_mem_columnData hc).1

/-- **The bounds of the columns are ranges.** -/
theorem WellFormed.isRange (hm : m.WellFormed) (hI : m.infinity = Binary64.infinity) {c : ColumnData}
    (hc : c ∈ m.columnData) : IsRange c.lower c.upper :=
  (hm.isBox (hI ▸ zero_lt_infinity) hc).isRange

end Model

end Milp
