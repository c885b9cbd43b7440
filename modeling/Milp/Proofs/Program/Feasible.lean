import Mathlib
import Milp.Proofs.Binary64.Exact

/-!
# Feasible points

What a model and a linear program ask of a point, in exact arithmetic. A point has one rational for each
column, and the stored numbers stand for their exact values.

* `Row.value` — the value of a row at a point.
* `Model.Feasible` — the point keeps to all bounds, integrality flags and rows of a model.
* `Model.IsOptimum` and `Model.Grows` — the largest objective value, or none.
* `Program.Feasible` — the point keeps to all bounds, integer columns and constraints of a program.
-/

namespace Milp

/-- A point: one rational for each column. -/
abbrev Point := List ℚ

/-- **The value of terms at a point**: columns and coefficients, multiplied and summed up exactly. -/
def termsValue (terms : List (ℕ × Binary64)) (x : Point) : ℚ :=
  (terms.map fun t => t.2.toRat * x.getD t.1 0).sum

/-- **The value of a row** at a point. -/
def Row.value (r : Row) (x : Point) : ℚ := termsValue (r.terms.map fun t => (t.1.toInt.toNat, t.2)) x

/-- **A row holds** at a point: its value keeps to both bounds. -/
def BoundedRow.Holds (r : BoundedRow) (x : Point) : Prop :=
  r.lo.IsBelow (r.row.value x) ∧ r.hi.IsAbove (r.row.value x)

namespace Model

/-- **A column admits a value**: it keeps to both bounds, and is an integer if the column is one. -/
structure ColumnData.Admits (c : ColumnData) (q : ℚ) : Prop where
  lower : c.lower.IsBelow q
  upper : c.upper.IsAbove q
  integer : c.integer = true → ∃ k : ℤ, q = k

/-- **The feasible points of a model.** -/
structure Feasible (m : Model) (x : Point) : Prop where
  columns : List.Forall₂ ColumnData.Admits m.columnData x
  rows : ∀ r ∈ m.rows, r.Holds x

/-- **The objective value** of a point. -/
def value (m : Model) (x : Point) : ℚ := (List.zipWith (fun c q => c.toRat * q) m.objective x).sum

/-- **The best points of a model**: feasible, and no feasible point has a larger objective value. -/
structure IsOptimum (m : Model) (x : Point) : Prop where
  feasible : m.Feasible x
  greatest : ∀ y, m.Feasible y → m.value y ≤ m.value x

/-- **The objective has no upper bound** over the feasible points. -/
def Grows (m : Model) : Prop := ∀ B : ℚ, ∃ x, m.Feasible x ∧ B < m.value x

/-- A best point is an upper bound. -/
theorem IsOptimum.not_grows {m : Model} {x : Point} (h : m.IsOptimum x) : ¬ m.Grows := by
  intro hgrows
  obtain ⟨y, hy, hlt⟩ := hgrows (m.value x)
  exact absurd (h.greatest y hy) (not_le.mpr hlt)

end Model

namespace Program

/-- A column of a program admits a value; a missing bound is no bound. -/
structure Column.Admits (c : Column) (q : ℚ) : Prop where
  lower : ∀ lo, c.lower? = some lo → lo.IsBelow q
  upper : ∀ hi, c.upper? = some hi → hi.IsAbove q
  integer : c.integer = true → ∃ k : ℤ, q = k

/-- A constraint holds at a point. -/
def Constraint.Holds (c : Constraint) (x : Point) : Prop :=
  match c.sense with
  | .atLeast => c.bound.IsBelow (termsValue c.terms x)
  | .equal => c.bound.IsBelow (termsValue c.terms x) ∧ c.bound.IsAbove (termsValue c.terms x)
  | .atMost => c.bound.IsAbove (termsValue c.terms x)

/-- **The feasible points of a program.** -/
structure Feasible (p : Program) (x : Point) : Prop where
  columns : List.Forall₂ Column.Admits p.columns x
  constraints : ∀ c ∈ p.constraints, c.Holds x

end Program

/-! ## Values of terms -/

theorem termsValue_nil (x : Point) : termsValue [] x = 0 := rfl

theorem termsValue_cons (t : ℕ × Binary64) (terms : List (ℕ × Binary64)) (x : Point) :
    termsValue (t :: terms) x = t.2.toRat * x.getD t.1 0 + termsValue terms x := by
  rw [termsValue, List.map_cons, List.sum_cons]
  rfl

/-- **Terms without a coefficient do not count.** -/
theorem termsValue_filter {terms : List (ℕ × Binary64)} (keep : ℕ × Binary64 → Bool) (x : Point)
    (h : ∀ t ∈ terms, keep t = false → t.2.toRat = 0) :
    termsValue (terms.filter keep) x = termsValue terms x := by
  induction terms with
  | nil => rfl
  | cons t rest ih =>
    obtain ⟨ht, hrest⟩ := List.forall_mem_cons.mp h
    cases hkeep : keep t with
    | true => rw [List.filter_cons_of_pos hkeep, termsValue_cons, termsValue_cons, ih hrest]
    | false =>
      rw [List.filter_cons_of_neg (by simp [hkeep]), termsValue_cons, ht hkeep, zero_mul, zero_add,
        ih hrest]

theorem toRat_eq_zero_iff {c : Binary64} (h : c.isFinite = true) :
    c.toRat = 0 ↔ c.same Binary64.zero = true := by
  rw [Binary64.same_iff_toRat h rfl, Binary64.toRat_zero]

/-- **The value of a row is that of its nonzero terms.** -/
theorem value_eq_nonzeroTerms {r : Row} (h : ∀ c ∈ r.coeffs, c.isFinite = true) (x : Point) :
    r.value x = termsValue (Model.nonzeroTerms r) x := by
  have hmap : Model.nonzeroTerms r =
      (r.terms.map fun t => (t.1.toInt.toNat, t.2)).filter fun t => !t.2.same Binary64.zero := by
    rw [Model.nonzeroTerms, List.filter_map]
    rfl
  rw [Row.value, hmap]
  refine (termsValue_filter _ x fun t ht hdrop => ?_).symm
  obtain ⟨s, hs, rfl⟩ := List.mem_map.mp ht
  have hcoeff : s.2 ∈ r.coeffs := (List.of_mem_zip hs).2
  exact (toRat_eq_zero_iff (h _ hcoeff)).mpr (by simpa using hdrop)

end Milp
