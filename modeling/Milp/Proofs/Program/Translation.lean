import Mathlib
import Milp.Proofs.Model.Ranges
import Milp.Proofs.Model.Reachable
import Milp.Proofs.Program.Feasible
import Milp.Proofs.Program.Names

/-!
# The translation into a linear program is exact

Where infinity is that of the format, a model and its linear program have the same feasible points, as
long as no row without nonzeros excludes zero; if one does, the model has none.

* `translate_eq` — a well-formed model is translated.
* `admits_iff` — a column and its translation admit the same values.
* `constraints_of_row` — the constraints of a row with nonzeros hold exactly where the row does.
* `holds_iff_of_no_terms` and `mem_violated_iff` — rows without nonzeros hold everywhere or nowhere.
* `translate_exact` — the whole of it, for reachable models.
-/

namespace Milp

open Binary64 (isBelow_iff isAbove_iff)

namespace Model

variable {m : Model}

theorem bound?_of_isFinite (hI : m.infinity = Binary64.infinity) {x : Binary64}
    (h : x.isFinite = true) : m.bound? x = some x := by
  rw [bound?, isInfinite_eq hI, Binary64.not_isInfinite_of_isFinite h]
  rfl

theorem bound?_of_isInfinite (hI : m.infinity = Binary64.infinity) {x : Binary64}
    (h : x.isInfinite = true) : m.bound? x = none := by
  rw [bound?, isInfinite_eq hI, h]
  rfl

/-! ## Columns -/

/-- **A column and its translation admit the same values.** -/
theorem admits_iff (hI : m.infinity = Binary64.infinity) {c : ColumnData}
    (hc : IsRange c.lower c.upper) (q : ℚ) :
    c.Admits q ↔
      (⟨m.bound? c.lower, m.bound? c.upper, c.integer⟩ : Program.Column).Admits q := by
  have hlower : c.lower.IsBelow q ↔ ∀ lo, m.bound? c.lower = some lo → lo.IsBelow q := by
    rcases hc.lo_cases with hfinite | hinfinite
    · simp [bound?_of_isFinite hI hfinite]
    · rw [hinfinite, bound?_of_isInfinite hI rfl]
      exact iff_of_true Binary64.isBelow_negInfinity (by simp)
  have hupper : c.upper.IsAbove q ↔ ∀ hi, m.bound? c.upper = some hi → hi.IsAbove q := by
    rcases hc.hi_cases with hfinite | hinfinite
    · simp [bound?_of_isFinite hI hfinite]
    · rw [hinfinite, bound?_of_isInfinite hI rfl]
      exact iff_of_true Binary64.isAbove_infinity (by simp)
  constructor
  · intro h
    exact ⟨hlower.mp h.lower, hupper.mp h.upper, h.integer⟩
  · intro h
    exact ⟨hlower.mpr h.lower, hupper.mpr h.upper, h.integer⟩

/-- Columns and their translations admit the same points. -/
theorem forall₂_admits_iff (hI : m.infinity = Binary64.infinity) {cs : List ColumnData}
    (hcs : ∀ c ∈ cs, IsRange c.lower c.upper) (x : Point) :
    List.Forall₂ ColumnData.Admits cs x ↔
      List.Forall₂ Program.Column.Admits
        (cs.map fun c => ⟨m.bound? c.lower, m.bound? c.upper, c.integer⟩) x := by
  induction cs generalizing x with
  | nil => simp
  | cons c rest ih =>
    obtain ⟨hc, hrest⟩ := List.forall_mem_cons.mp hcs
    cases x with
    | nil => simp
    | cons q x =>
      rw [List.map_cons, List.forall₂_cons, List.forall₂_cons, admits_iff hI hc, ih hrest]

/-- A bound that the program has is finite, if all that is infinite counts as infinite. -/
theorem bound?_filter (hI : m.infinity = Binary64.infinity) {x y : Binary64}
    (h : x.isFinite = true ∨ x = y) (hy : y.isInfinite = true) :
    (m.bound? x).filter (fun x => !x.isFinite) = none := by
  rcases h with hfinite | rfl
  · rw [bound?_of_isFinite hI hfinite]
    simp [hfinite]
  · rw [bound?_of_isInfinite hI hy]
    rfl

/-- **A well-formed model is translated.** -/
theorem translate_eq (hm : m.WellFormed) (hI : m.infinity = Binary64.infinity) :
    m.translate = .ok m.program := by
  have hcolumn : ∀ c ∈ m.columnData, m.checkColumn c = .ok () := by
    intro c hc
    have hrange := hm.isRange hI hc
    rw [checkColumn, bound?_filter hI hrange.lo_cases rfl, bound?_filter hI hrange.hi_cases rfl]
  rw [translate, forM_eq_ok hcolumn]
  rfl

/-! ## Rows without nonzeros -/

section Rows

variable {r : BoundedRow} {n : ℕ} {x : Point}

theorem excludesZero_iff (hr : r.Fits n) :
    excludesZero r = true ↔ ¬ (r.lo.IsBelow 0 ∧ r.hi.IsAbove 0) := by
  rw [Binary64.isBelow_zero_iff hr.range.lo_number hr.range.lo_ne,
    Binary64.isAbove_zero_iff hr.range.hi_number hr.range.hi_ne, excludesZero, Bool.or_eq_true,
    not_and_or, not_not, not_not]

/-- **A row without nonzeros holds everywhere or nowhere.** -/
theorem holds_iff_of_no_terms (hr : r.Fits n) (hterms : nonzeroTerms r.row = []) :
    r.Holds x ↔ ¬ excludesZero r = true := by
  rw [excludesZero_iff hr, not_not, BoundedRow.Holds, value_eq_nonzeroTerms hr.row.finite, hterms,
    termsValue_nil]

/-- A row has no nonzeros exactly if all its coefficients are zero. -/
theorem nonzeroTerms_eq_nil_iff (hr : r.row.Fits n) :
    nonzeroTerms r.row = [] ↔ ∀ c ∈ r.row.coeffs, c.toRat = 0 := by
  rw [nonzeroTerms, List.map_eq_nil_iff, List.filter_eq_nil_iff]
  constructor
  · intro h c hc
    obtain ⟨k, hk, rfl⟩ := List.getElem_of_mem hc
    have hk' : k < r.row.indices.length := by rw [hr.lengths]; exact hk
    have hterm : (r.row.indices[k], r.row.coeffs[k]) ∈ r.row.terms := by
      refine List.mem_iff_getElem.mpr ⟨k, by simp [Row.terms, hk, hk'], ?_⟩
      exact List.getElem_zip
    have hzero := h _ hterm
    exact (toRat_eq_zero_iff (hr.finite _ hc)).mpr (by simpa using hzero)
  · intro h t ht
    have hcoeff : t.2 ∈ r.row.coeffs := (List.of_mem_zip ht).2
    simpa using (toRat_eq_zero_iff (hr.finite _ hcoeff)).mp (h _ hcoeff)

/-! ## Rows with nonzeros -/

/-- The constraint for a lower side, if there is one, says what the side says. -/
theorem lower_side_iff (hI : m.infinity = Binary64.infinity) {lo : Binary64}
    (hlo : lo.isFinite = true ∨ lo = Binary64.negInfinity) (position : ℕ)
    (terms : List (ℕ × Binary64)) :
    (∀ c ∈ (if m.isInfinite lo then [] else [(⟨position, .atLeast, terms, lo⟩ :
      Program.Constraint)]), c.Holds x) ↔ lo.IsBelow (termsValue terms x) := by
  rcases hlo with hfinite | hinfinite
  · rw [isInfinite_eq hI, Binary64.not_isInfinite_of_isFinite hfinite]
    exact List.forall_mem_singleton
  · rw [isInfinite_eq hI, hinfinite]
    exact iff_of_true (by simp [Binary64.negInfinity, Binary64.isInfinite])
      Binary64.isBelow_negInfinity

/-- The constraint for an upper side, if there is one, says what the side says. -/
theorem upper_side_iff (hI : m.infinity = Binary64.infinity) {hi : Binary64}
    (hhi : hi.isFinite = true ∨ hi = Binary64.infinity) (position : ℕ)
    (terms : List (ℕ × Binary64)) :
    (∀ c ∈ (if m.isInfinite hi then [] else [(⟨position, .atMost, terms, hi⟩ :
      Program.Constraint)]), c.Holds x) ↔ hi.IsAbove (termsValue terms x) := by
  rcases hhi with hfinite | hinfinite
  · rw [isInfinite_eq hI, Binary64.not_isInfinite_of_isFinite hfinite]
    exact List.forall_mem_singleton
  · rw [isInfinite_eq hI, hinfinite]
    exact iff_of_true (by simp [Binary64.infinity, Binary64.isInfinite]) Binary64.isAbove_infinity

/-- **The constraints of a row** hold exactly where the row does, unless the row has no nonzeros and so no
constraints. -/
theorem constraints_of_row (hI : m.infinity = Binary64.infinity) (hr : r.Fits n) (position : ℕ) :
    (∀ c ∈ m.rowConstraints position r, c.Holds x) ↔ nonzeroTerms r.row = [] ∨ r.Holds x := by
  rcases eq_or_ne (nonzeroTerms r.row) [] with hterms | hterms
  · simp [rowConstraints, hterms]
  have hterms' : ¬ (nonzeroTerms r.row).isEmpty = true := by simpa using hterms
  rw [or_iff_right hterms, BoundedRow.Holds, value_eq_nonzeroTerms hr.row.finite x]
  simp only [rowConstraints]
  rw [if_neg hterms']
  by_cases hsame : r.lo.same r.hi = true
  · -- equal bounds: one constraint stands for both sides
    obtain ⟨hlo, hhi⟩ := hr.range.finite_of_same hsame
    have hequal := (Binary64.same_iff_toRat hlo hhi).mp hsame
    rw [if_pos hsame, List.forall_mem_singleton, isAbove_iff hhi, ← hequal, ← isAbove_iff hlo]
    rfl
  · rw [if_neg hsame, List.forall_mem_append, lower_side_iff hI hr.range.lo_cases,
      upper_side_iff hI hr.range.hi_cases]

/-- No row is violated exactly if every row without nonzeros holds. -/
theorem violated_eq_nil_iff (hm : m.WellFormed) :
    m.violated = [] ↔ ∀ r ∈ m.rows, nonzeroTerms r.row = [] → r.Holds x := by
  rw [violated, List.map_eq_nil_iff, List.filter_eq_nil_iff, forall_mem_zipIdx_iff
    (fun r => ¬ ((nonzeroTerms r.row).isEmpty && excludesZero r) = true)]
  refine forall₂_congr fun r hr => ?_
  rw [Bool.and_eq_true, List.isEmpty_iff, not_and]
  refine forall_congr' fun hterms => ?_
  exact (holds_iff_of_no_terms (hm.rows_fit r hr) hterms).symm

/-- **All rows hold** exactly if none without nonzeros is violated and all constraints hold. -/
theorem rows_hold_iff (hm : m.WellFormed) (hI : m.infinity = Binary64.infinity) :
    (∀ r ∈ m.rows, r.Holds x) ↔ m.violated = [] ∧ ∀ c ∈ m.program.constraints, c.Holds x := by
  have hconstraints : (∀ c ∈ m.program.constraints, c.Holds x) ↔
      ∀ r ∈ m.rows, nonzeroTerms r.row = [] ∨ r.Holds x := by
    rw [← forall_mem_zipIdx_iff (fun r : BoundedRow => nonzeroTerms r.row = [] ∨ r.Holds x), program,
      List.forall_mem_flatMap]
    refine forall₂_congr fun p hp => ?_
    exact constraints_of_row hI (hm.rows_fit _ (List.fst_mem_of_mem_zipIdx hp)) p.2
  -- one side speaks for the rows without nonzeros, the other for all others
  rw [violated_eq_nil_iff (x := x) hm, hconstraints, ← forall₂_and]
  refine forall₂_congr fun r hr => ?_
  by_cases hterms : nonzeroTerms r.row = []
  · simp [hterms]
  · simp [hterms]

/-- **The rows that cannot hold** are those at whose positions stands a row without nonzeros whose bounds
exclude zero. -/
theorem mem_violated_iff (hm : m.WellFormed) {k : ℕ} :
    k ∈ m.violated ↔ ∃ r, m.rows[k]? = some r ∧ (∀ c ∈ r.row.coeffs, c.toRat = 0) ∧
      ¬ (r.lo.IsBelow 0 ∧ r.hi.IsAbove 0) := by
  rw [violated, List.mem_map]
  constructor
  · rintro ⟨⟨r, j⟩, hp, rfl⟩
    obtain ⟨hmem, hbad⟩ := List.mem_filter.mp hp
    have hget := List.mk_mem_zipIdx_iff_getElem?.mp hmem
    have hfits := hm.rows_fit r (List.mem_of_getElem? hget)
    obtain ⟨hterms, hzero⟩ := Bool.and_eq_true_iff.mp hbad
    exact ⟨r, hget, (nonzeroTerms_eq_nil_iff hfits.row).mp (List.isEmpty_iff.mp hterms),
      (excludesZero_iff hfits).mp hzero⟩
  · rintro ⟨r, hget, hcoeffs, hzero⟩
    have hfits := hm.rows_fit r (List.mem_of_getElem? hget)
    refine ⟨(r, k), List.mem_filter.mpr ⟨List.mk_mem_zipIdx_iff_getElem?.mpr hget, ?_⟩, rfl⟩
    exact Bool.and_eq_true_iff.mpr ⟨List.isEmpty_iff.mpr ((nonzeroTerms_eq_nil_iff hfits.row).mpr hcoeffs),
      (excludesZero_iff hfits).mpr hzero⟩

/-- The rows that cannot hold come in increasing order. -/
theorem pairwise_violated (m : Model) : m.violated.Pairwise (· < ·) :=
  List.pairwise_map.mpr ((pairwise_zipIdx m.rows).filter _)

end Rows

/-! ## The whole program -/

/-- **A model and its program have the same feasible points**, as far as no row is violated. -/
theorem feasible_iff (hm : m.WellFormed) (hI : m.infinity = Binary64.infinity) (x : Point) :
    m.Feasible x ↔ m.violated = [] ∧ m.program.Feasible x := by
  have hcolumns := forall₂_admits_iff hI (fun c hc => hm.isRange hI hc) x
  constructor
  · intro h
    obtain ⟨hviolated, hconstraints⟩ := (rows_hold_iff hm hI).mp h.rows
    exact ⟨hviolated, hcolumns.mp h.columns, hconstraints⟩
  · rintro ⟨hviolated, h⟩
    exact ⟨hcolumns.mpr h.columns, (rows_hold_iff hm hI).mpr ⟨hviolated, h.constraints⟩⟩

/-- **The objective of the program** is that of the model, with every column present. -/
theorem objective_program (hm : m.WellFormed) :
    m.program.objective.map (·.1) = List.range m.columns ∧
      m.program.objective.map (·.2) = m.objective := by
  constructor
  · rw [program, List.map_map, ← hm.objective_length, List.range_eq_range',
      ← List.zipIdx_map_snd 0 m.objective]
    rfl
  · conv_rhs => rw [← List.zipIdx_map_fst 0 m.objective]
    rw [program, List.map_map]
    rfl

/-- **The translation into a linear program is exact.** A reachable model whose infinity is that of the format
is translated; its feasible points are those of the program if no row is violated, and there are none if
one is. The objective is that of the model with every column present, `violated` lists exactly the
rows without nonzeros that exclude zero, and no two constraints share a name. -/
theorem translate_exact (hm : m.Reachable) (hI : m.infinity = Binary64.infinity) :
    ∃ p, m.translate = .ok p ∧ (∀ x, m.Feasible x ↔ m.violated = [] ∧ p.Feasible x) ∧
      p.objective.map (·.1) = List.range m.columns ∧ p.objective.map (·.2) = m.objective ∧
      m.violated.Pairwise (· < ·) ∧
      (∀ k, k ∈ m.violated ↔ ∃ r, m.rows[k]? = some r ∧ (∀ c ∈ r.row.coeffs, c.toRat = 0) ∧
        ¬ (r.lo.IsBelow 0 ∧ r.hi.IsAbove 0)) ∧
      (p.constraints.map (·.name)).Nodup := by
  have hwf := hm.wellFormed
  obtain ⟨hpositions, hcoeffs⟩ := objective_program hwf
  exact ⟨m.program, translate_eq hwf hI, feasible_iff hwf hI, hpositions, hcoeffs,
    m.pairwise_violated, fun k => mem_violated_iff hwf, m.names_nodup⟩

/-- One column and one row `0 ≤ x₀ ≤ 1`: no row is violated, and the feasible points are those of the
program. With the row `1 ≤ 0` behind it that row is violated, and nothing is feasible. -/
theorem translate_exact_of_two_rows :
    let one := Binary64.one
    let r : BoundedRow := ⟨.ofArrays [0] [one], Binary64.zero, one⟩
    let empty : BoundedRow := ⟨.ofArrays [] [], one, one⟩
    let m := (blank 1 0 Binary64.infinity).appendAll [r]
    let m' := (blank 1 0 Binary64.infinity).appendAll [r, empty]
    (∃ p, m.translate = .ok p ∧ ∀ x, m.Feasible x ↔ p.Feasible x) ∧
      1 ∈ m'.violated ∧ ∀ x, ¬ m'.Feasible x := by
  intro one r empty m m'
  have hwidth : 1 < entryLimit := by decide +kernel
  have hm : m.Reachable := reachable_appendAll hwidth _ (by decide +kernel)
  have hm' : m'.Reachable := reachable_appendAll hwidth _ (by decide +kernel)
  have hnone : m.violated = [] := by decide +kernel
  have hone : m'.violated = [1] := by decide +kernel
  obtain ⟨p, hp, hfeasible, -⟩ := translate_exact hm rfl
  obtain ⟨p', hp', hfeasible', -⟩ := translate_exact hm' rfl
  refine ⟨⟨p, hp, fun x => ?_⟩, by rw [hone]; exact List.mem_cons_self, fun x hx => ?_⟩
  · rw [hfeasible x]
    exact and_iff_right hnone
  · have hempty := ((hfeasible' x).mp hx).1
    rw [hone] at hempty
    cases hempty

end Model

end Milp
