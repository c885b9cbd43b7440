import Milp.Proofs.Program.Translation
import Milp.Proofs.Row.Dense
import Milp.Proofs.Solve.Numbers

/-!
# Full vectors and sparse rows mean the same program

A row may be given by columns and coefficients, in any order and with explicit zeros, or as a full vector. The
rows that are stored differ; their nonzero terms are the same up to their order, and a linear program depends on
nothing else of a row.

* `BoundedRow.MeansLike` — rows with the same nonzero terms, in some order, and the same bounds.
* `Program.IsLike` — programs that differ in the order of the terms of their constraints.
* `rows_meansLike` — models whose rows mean the same have such programs, and the same violated rows.
* `perm_nonzeroTerms_asDense` — a row means the same as its full vector.
* `dense_means_sparse` — the whole of it, for reachable models.
-/

namespace Milp

/-! ## Coefficients by column -/

/-- With one entry for each column, what is found under a column is its entry. -/
theorem lookup_eq_some_iff_mem {ts : List (ℕ × Binary64)} (hdistinct : (ts.map Prod.fst).Nodup) {j : ℕ}
    {c : Binary64} : ts.lookup j = some c ↔ (j, c) ∈ ts := by
  induction ts with
  | nil => simp
  | cons t ts ih =>
    obtain ⟨k, d⟩ := t
    rw [List.map_cons, List.nodup_cons] at hdistinct
    obtain ⟨hfresh, hdistinct⟩ := hdistinct
    rw [List.lookup_cons, List.mem_cons]
    by_cases hjk : j = k
    · subst hjk
      have hnot : (j, c) ∉ ts := fun hmem => hfresh (List.mem_map.mpr ⟨_, hmem, rfl⟩)
      simp [hnot, eq_comm]
    · have hne : (j == k) = false := by simpa using hjk
      rw [hne]
      simpa [hjk] using ih hdistinct

/-- The order of the entries does not matter. -/
theorem lookup_eq_of_perm {ts us : List (ℕ × Binary64)} (hdistinct : (ts.map Prod.fst).Nodup) (h : ts.Perm us)
    (j : ℕ) : ts.lookup j = us.lookup j := by
  refine Option.ext fun c => ?_
  rw [lookup_eq_some_iff_mem hdistinct, lookup_eq_some_iff_mem ((h.map Prod.fst).nodup hdistinct), h.mem_iff]

/-- **Two constraints are the same**: name, sense and right-hand side, and the coefficient of every column. Neither
names a column twice. -/
structure Program.Constraint.IsLike (c d : Program.Constraint) : Prop where
  name : c.name = d.name
  sense : c.sense = d.sense
  bound : c.bound = d.bound
  coefficients : ∀ j, c.terms.lookup j = d.terms.lookup j
  distinct : (c.terms.map Prod.fst).Nodup ∧ (d.terms.map Prod.fst).Nodup

/-- **Two programs are the same** but for the order of the terms in their constraints. -/
structure Program.IsLike (p q : Program) : Prop where
  columns : p.columns = q.columns
  objective : p.objective = q.objective
  constraints : List.Forall₂ Program.Constraint.IsLike p.constraints q.constraints

/-! ## Rows that mean the same -/

/-- **Two rows mean the same**: the same bounds, and the same nonzero terms in some order. -/
structure BoundedRow.MeansLike (r s : BoundedRow) : Prop where
  terms : (Model.nonzeroTerms r.row).Perm (Model.nonzeroTerms s.row)
  lo : r.lo = s.lo
  hi : r.hi = s.hi

theorem BoundedRow.MeansLike.rfl {r : BoundedRow} : r.MeansLike r where
  terms := .refl _
  lo := Eq.refl _
  hi := Eq.refl _

/-- A row with its bounds, as it is stored when its coefficients come as a full vector. -/
def BoundedRow.asDense (n : ℕ) (r : BoundedRow) : BoundedRow := { r with row := r.row.asDense n }

namespace Model

variable {m : Model} {r s : BoundedRow} {n : ℕ}

/-- The nonzero terms of a row name different columns. -/
theorem nodup_nonzeroTerms {r : Row} (hr : r.Fits n) : ((nonzeroTerms r).map Prod.fst).Nodup := by
  rw [nonzeroTerms, List.map_map]
  exact hr.nodup_positions.sublist (List.filter_sublist.map _)

/-- Terms in another order, and an equal bound. -/
theorem constraint_isLike {ts us : List (ℕ × Binary64)} (hdistinct : (ts.map Prod.fst).Nodup) (h : ts.Perm us)
    (position : ℕ) (sense : Sense) (bound : Binary64) :
    Program.Constraint.IsLike ⟨position, sense, ts, bound⟩ ⟨position, sense, us, bound⟩ where
  name := by cases sense <;> rfl
  sense := rfl
  bound := rfl
  coefficients := lookup_eq_of_perm hdistinct h
  distinct := ⟨hdistinct, (h.map Prod.fst).nodup hdistinct⟩

/-- **Rows that mean the same have the same constraints.** -/
theorem rowConstraints_isLike (hr : r.row.Fits n) (h : r.MeansLike s) (position : ℕ) :
    List.Forall₂ Program.Constraint.IsLike (m.rowConstraints position r) (m.rowConstraints position s) := by
  have hsame := constraint_isLike (nodup_nonzeroTerms hr) h.terms position
  have hempty : (nonzeroTerms r.row).isEmpty = (nonzeroTerms s.row).isEmpty := by
    rw [Bool.eq_iff_iff, List.isEmpty_iff_length_eq_zero, List.isEmpty_iff_length_eq_zero, h.terms.length_eq]
  simp only [rowConstraints, ← hempty, ← h.lo, ← h.hi]
  split
  · exact .nil
  split
  · exact .cons (hsame _ _) .nil
  refine List.rel_append ?_ ?_
  · split
    · exact .nil
    · exact .cons (hsame _ _) .nil
  · split
    · exact .nil
    · exact .cons (hsame _ _) .nil

/-- **A row that cannot hold** is one in every form. -/
theorem violates_eq (h : r.MeansLike s) :
    ((nonzeroTerms r.row).isEmpty && excludesZero r) = ((nonzeroTerms s.row).isEmpty && excludesZero s) := by
  have hempty : (nonzeroTerms r.row).isEmpty = (nonzeroTerms s.row).isEmpty := by
    rw [Bool.eq_iff_iff, List.isEmpty_iff_length_eq_zero, List.isEmpty_iff_length_eq_zero, h.terms.length_eq]
  rw [hempty, excludesZero, excludesZero, h.lo, h.hi]

/-! ## Models whose rows mean the same -/

variable {rows : List BoundedRow}

/-- The programs are the same. -/
theorem program_isLike (hfits : ∀ r ∈ m.rows, r.Fits n) (h : List.Forall₂ BoundedRow.MeansLike m.rows rows) :
    m.program.IsLike { m with rows := rows }.program where
  columns := rfl
  objective := rfl
  constraints := by
    have hrelated : List.Forall₂ (fun r s => r.row.Fits n ∧ r.MeansLike s) m.rows rows :=
      (List.forall₂_and_left _ _).mpr ⟨fun r hr => (hfits r hr).row, h⟩
    refine List.rel_flatMap (forall₂_zipIdx hrelated 0) ?_
    rintro ⟨r, i⟩ ⟨s, j⟩ ⟨⟨hr, hrs⟩, hij : i = j⟩
    subst hij
    exact rowConstraints_isLike hr hrs i

/-- The same rows cannot hold. -/
theorem violated_eq_of_rows (h : List.Forall₂ BoundedRow.MeansLike m.rows rows) :
    { m with rows := rows }.violated = m.violated := by
  have hfiltered : List.Forall₂ (fun p q => BoundedRow.MeansLike p.1 q.1 ∧ p.2 = q.2)
      (m.rows.zipIdx.filter fun p => (nonzeroTerms p.1.row).isEmpty && excludesZero p.1)
      (rows.zipIdx.filter fun p => (nonzeroTerms p.1.row).isEmpty && excludesZero p.1) := by
    refine List.rel_filter ?_ (forall₂_zipIdx h 0)
    rintro ⟨r, i⟩ ⟨s, j⟩ ⟨hrow, -⟩
    simp only [violates_eq hrow]
  have hpositions : List.Forall₂ (· = ·) m.violated { m with rows := rows }.violated :=
    List.rel_map (fun _ _ hpq => hpq.2) hfiltered
  rw [List.forall₂_eq_eq_eq] at hpositions
  exact hpositions.symm

/-- **The translation looks at nonzero terms only.** If it refuses the model, it refuses the other one for the same
cause. -/
theorem rows_meansLike (hfits : ∀ r ∈ m.rows, r.Fits n) (h : List.Forall₂ BoundedRow.MeansLike m.rows rows) :
    { m with rows := rows }.violated = m.violated ∧
      ((∃ e, m.translate = .error e ∧ { m with rows := rows }.translate = .error e) ∨
        ∃ p q, m.translate = .ok p ∧ { m with rows := rows }.translate = .ok q ∧ p.IsLike q) := by
  refine ⟨violated_eq_of_rows h, ?_⟩
  have hcheck : { m with rows := rows }.columnData.forM { m with rows := rows }.checkColumn =
      m.columnData.forM m.checkColumn := rfl
  rw [translate, translate, hcheck]
  cases m.columnData.forM m.checkColumn with
  | error e => exact .inl ⟨e, rfl, rfl⟩
  | ok => exact .inr ⟨_, _, rfl, rfl, program_isLike hfits h⟩

/-! ## Full vectors -/

/-- The nonzero terms of a row, by the entries that they come from. -/
theorem mem_nonzeroTerms_iff {r : Row} {p : ℕ × Binary64} :
    p ∈ nonzeroTerms r ↔
      ∃ t, (t ∈ r.terms ∧ t.2.same Binary64.zero = false) ∧ (t.1.toInt.toNat, t.2) = p := by
  simp [nonzeroTerms, List.mem_map, List.mem_filter]

section Dense

variable (hn : (n : Int) ≤ Int64.maxValue.toInt)
include hn

/-- **A row and its full vector have the same nonzero terms**, up to their order. -/
theorem perm_nonzeroTerms_asDense {r : Row} (hr : r.Fits n) :
    (nonzeroTerms r).Perm (nonzeroTerms (r.asDense n)) := by
  have hnodup := (nodup_nonzeroTerms hr).of_map
  have hnodup' := (nodup_nonzeroTerms (hr.asDense hn)).of_map
  refine (List.perm_ext_iff_of_nodup hnodup hnodup').mpr fun p => ?_
  rw [mem_nonzeroTerms_iff, mem_nonzeroTerms_iff]
  refine exists_congr fun t => ?_
  simp only [hr.mem_terms_asDense_iff hn, and_assoc, and_self_left]

/-- **A row means the same as its full vector.** -/
theorem meansLike_asDense (hr : r.row.Fits n) : r.MeansLike (r.asDense n) where
  terms := perm_nonzeroTerms_asDense hn hr
  lo := rfl
  hi := rfl

end Dense

/-- **The full vector of a row that fits is accepted**, with whatever bounds the row itself would be. -/
theorem addDenseRow_scatter (hopen : m.frozen = false) {r : Row} (hr : r.Fits m.columns) {lo hi : Arg}
    {l u : Binary64} (hbounds : rowBounds lo hi = .ok (l, u)) :
    m.addDenseRow (.ofFloats (r.scatter m.columns)) lo hi = .ok (m.append (r.asDense m.columns) l u) := by
  have hfinite := hr.finite_scatter
  have hnumbers : ∀ x ∈ r.scatter m.columns, x.isNaN = false := fun x hx =>
    Binary64.not_isNaN_of_place? (Binary64.place?_of_isFinite (hfinite x hx))
  exact addDenseRow_eq_ok_iff.mpr ⟨hopen, _, l, u,
    numberVector_ofFloats hnumbers (Row.length_scatter _ _) _, hfinite, hbounds, rfl⟩

/-- **Full vectors and sparse rows mean the same.** In a reachable model:
* where a sparse row is accepted, its full vector is accepted too, with the same bounds;
* what is then stored are the nonzeros of the full vector, in increasing order of columns, and written out
  they give the full vector back up to the signs of zeros;
* any rows of the model may be replaced by their full vectors: the same rows cannot hold, and the model is
  translated into the same program, or refused for the same cause. -/
theorem dense_means_sparse (hm : m.Reachable) :
    (∀ coeffs indices lo hi m', m.addSparseRow coeffs indices lo hi = .ok m' →
      ∃ r l u, m.readRow coeffs indices = .ok r ∧ r.Fits m.columns ∧
        m' = { m with rows := m.rows ++ [⟨r, l, u⟩] } ∧
        m.addDenseRow (.ofFloats (r.scatter m.columns)) lo hi =
          .ok { m with rows := m.rows ++ [⟨r.asDense m.columns, l, u⟩] }) ∧
      (∀ r : Row, r.Fits m.columns →
        (r.asDense m.columns).Fits m.columns ∧ (r.asDense m.columns).indices.Pairwise (· < ·) ∧
          (∀ i c, (i, c) ∈ (r.asDense m.columns).terms ↔ ∃ j, i = Int64.ofNat j ∧
            (r.scatter m.columns)[j]? = some c ∧ c.same Binary64.zero = false) ∧
          sameNumbers ((r.asDense m.columns).scatter m.columns) (r.scatter m.columns) = true) ∧
      ∀ rows, List.Forall₂ (fun r s => s = r ∨ s = BoundedRow.asDense m.columns r) m.rows rows →
        { m with rows := rows }.violated = m.violated ∧
          ((∃ e, m.translate = .error e ∧ { m with rows := rows }.translate = .error e) ∨
            ∃ p q, m.translate = .ok p ∧ { m with rows := rows }.translate = .ok q ∧ p.IsLike q) := by
  have hwf := hm.wellFormed
  have hn := hwf.columns_le
  refine ⟨?_, ?_, ?_⟩
  · intro coeffs indices lo hi m' haccepted
    obtain ⟨r, l, u, hread, hfits, hbounds, rfl⟩ := addSparseRow_eq_ok_iff.mp haccepted
    have hopen := (whenMutable_eq_ok_iff.mp hread).1
    exact ⟨r, l, u, hread, hfits, rfl, addDenseRow_scatter hopen hfits hbounds⟩
  · intro r hr
    exact ⟨hr.asDense hn, Row.pairwise_asDense hn r, fun _ _ => Row.mem_terms_ofDense_iff,
      hr.scatter_asDense hn⟩
  · intro rows hrows
    have hfitting := (List.forall₂_and_left _ _).mpr ⟨hwf.rows_fit, hrows⟩
    refine rows_meansLike hwf.rows_fit (hfitting.imp ?_)
    rintro r s ⟨hr, rfl | rfl⟩
    · exact .rfl
    · exact meansLike_asDense hn hr.row

/-- Three columns and the row `2 x₂ + 0 x₀ ≤ 4`: its full vector is accepted, is stored as the one nonzero, and may take
the row's place. -/
theorem dense_means_sparse_of_explicit_zero :
    let two := Binary64.ofInt 2
    let four := Binary64.ofInt 4
    let r : Row := .ofArrays [2, 0] [two, Binary64.zero]
    let bounded : BoundedRow := ⟨r, Binary64.negInfinity, four⟩
    let m := (blank 3 0 Binary64.infinity).appendAll [bounded]
    r.asDense 3 = .ofArrays [2] [two] ∧
      (∃ m', m.addDenseRow (.ofFloats [Binary64.zero, Binary64.zero, two]) (.float Binary64.negInfinity)
        (.float four) = .ok m') ∧
      ∃ p q, m.translate = .ok p ∧ { m with rows := [bounded.asDense 3] }.translate = .ok q ∧ p.IsLike q := by
  intro two four r bounded m
  have hfits : bounded.Fits 3 := by decide +kernel
  have hm : m.Reachable := reachable_appendAll (by decide +kernel) _ (by simpa [m] using hfits)
  obtain ⟨haccepted, -, hreplaced⟩ := dense_means_sparse hm
  have hread : m.readRow (.ofFloats r.coeffs) (.ofPositions r.indices) = .ok r := by
    rw [readRow, coefficientVector_ofFloats, indexVector_ofPositions]
    rfl
  have hsparse : m.addSparseRow (.ofFloats r.coeffs) (.ofPositions r.indices) (.float bounded.lo)
      (.float bounded.hi) = .ok (m.append r bounded.lo bounded.hi) :=
    addSparseRow_eq_ok_iff.mpr ⟨r, bounded.lo, bounded.hi, hread, hfits.row,
      rowBounds_eq_ok_iff.mpr ⟨rfl, rfl, hfits.range⟩, rfl⟩
  obtain ⟨r', l, u, hread', -, -, hdense⟩ := haccepted _ _ _ _ _ hsparse
  rw [hread, Except.ok.injEq] at hread'
  subst hread'
  have hscatter : r.scatter 3 = [Binary64.zero, Binary64.zero, two] := by decide +kernel
  refine ⟨by decide +kernel, ⟨_, hscatter ▸ hdense⟩, ?_⟩
  obtain ⟨-, ⟨e, herror, -⟩ | htranslated⟩ := hreplaced [bounded.asDense 3] (.cons (.inr rfl) .nil)
  · rw [translate_eq hm.wellFormed rfl] at herror
    cases herror
  · exact htranslated

end Model

end Milp
