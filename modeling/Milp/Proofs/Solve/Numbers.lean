import Milp.Proofs.Model.Alike
import Milp.Solve.Engine

/-!
# Solving looks at numbers

Terms with a zero coefficient never reach an engine, so the sign of a zero makes no difference to solving: models
that look the same have one linear program and one outcome.

* `nonzeroTerms_eq` — rows that look the same have the same nonzero terms.
* `Model.Alike.program_eq` and `violated_eq` — so do models, with the same program and the same violated rows.
* `Model.Alike.solve_eq` — and with the same outcome, whatever the engine is.
-/

namespace Milp.Model

/-! ## Rows -/

/-- Terms side by side, of which only those with the same nonzero coefficient are kept. -/
theorem filter_terms_eq {indices : List Int64} {xs ys : List Binary64} (h : sameNumbers xs ys = true) :
    (indices.zip xs).filter (fun t => !t.2.same Binary64.zero) =
      (indices.zip ys).filter fun t => !t.2.same Binary64.zero := by
  fun_induction sameNumbers xs ys generalizing indices with
  | case1 => rfl
  | case2 x xs y ys ih =>
    obtain ⟨hxy, hrest⟩ := Bool.and_eq_true_iff.mp h
    cases indices with
    | nil => rfl
    | cons i indices =>
      rw [List.zip_cons_cons, List.zip_cons_cons]
      -- equal numbers are one number, or two zeros, which both go
      rcases Binary64.eq_or_zero_of_same hxy with rfl | ⟨hx, hy⟩
      · rw [List.filter_cons, List.filter_cons, ih hrest]
      · rw [List.filter_cons_of_neg (by simp [hx]), List.filter_cons_of_neg (by simp [hy]), ih hrest]
  | case3 => cases h

theorem nonzeroTerms_eq {r s : Row} (h : r.Alike s) : nonzeroTerms r = nonzeroTerms s := by
  rw [nonzeroTerms, nonzeroTerms, Row.terms, Row.terms, h.indices, filter_terms_eq h.coeffs]

/-- Related entries stand at the same positions. -/
theorem forall₂_zipIdx {α β : Type} {R : α → β → Prop} {xs : List α} {ys : List β} (h : List.Forall₂ R xs ys)
    (n : Nat) : List.Forall₂ (fun p q => R p.1 q.1 ∧ p.2 = q.2) (xs.zipIdx n) (ys.zipIdx n) := by
  induction h generalizing n with
  | nil => exact .nil
  | cons hxy _ ih => exact .cons ⟨hxy, rfl⟩ (ih (n + 1))

/-! ## Models -/

variable {m m' : Model}

theorem Alike.isInfinite_eq (h : m.Alike m') (x : Binary64) : m.isInfinite x = m'.isInfinite x :=
  h.eq_of_bare (isInfinite · x) fun _ => rfl

theorem Alike.rowConstraints_eq (h : m.Alike m') {r s : BoundedRow} (hrow : r.Alike s) (position : Nat) :
    m.rowConstraints position r = m'.rowConstraints position s := by
  simp only [rowConstraints, nonzeroTerms_eq hrow.row, hrow.lo, hrow.hi, h.isInfinite_eq]

/-- **Models that look the same have one linear program.** -/
theorem Alike.program_eq (h : m.Alike m') : m.program = m'.program := by
  have hcolumns : m.program.columns = m'.program.columns := h.eq_of_bare (·.program.columns) fun _ => rfl
  have hobjective : m.program.objective = m'.program.objective := h.eq_of_bare (·.program.objective) fun _ => rfl
  have hconstraints : List.Forall₂ (· = ·) m.program.constraints m'.program.constraints := by
    refine List.rel_flatMap (forall₂_zipIdx h.rows 0) ?_
    rintro ⟨r, i⟩ ⟨s, j⟩ ⟨hrow, hij : i = j⟩
    subst hij
    show List.Forall₂ _ (m.rowConstraints i r) (m'.rowConstraints i s)
    rw [h.rowConstraints_eq hrow]
    exact List.forall₂_refl _
  rw [List.forall₂_eq_eq_eq] at hconstraints
  show Program.mk m.program.columns m.program.objective m.program.constraints = _
  rw [hcolumns, hobjective, hconstraints]

theorem Alike.translate_eq (h : m.Alike m') : m.translate = m'.translate := by
  have hcheck := h.eq_of_bare (fun m => m.columnData.forM m.checkColumn) fun _ => rfl
  rw [translate, translate, hcheck, h.program_eq]

/-- **They have the same rows that cannot hold.** -/
theorem Alike.violated_eq (h : m.Alike m') : m.violated = m'.violated := by
  have hfiltered : List.Forall₂ (fun p q => p.1.Alike q.1 ∧ p.2 = q.2)
      (m.rows.zipIdx.filter fun p => (nonzeroTerms p.1.row).isEmpty && excludesZero p.1)
      (m'.rows.zipIdx.filter fun p => (nonzeroTerms p.1.row).isEmpty && excludesZero p.1) := by
    refine List.rel_filter ?_ (forall₂_zipIdx h.rows 0)
    rintro ⟨r, i⟩ ⟨s, j⟩ ⟨hrow, -⟩
    have hlo : r.lo = s.lo := hrow.lo
    have hhi : r.hi = s.hi := hrow.hi
    simp only [nonzeroTerms_eq hrow.row, excludesZero, hlo, hhi]
  have hpositions : List.Forall₂ (· = ·) m.violated m'.violated :=
    List.rel_map (fun _ _ hpq => hpq.2) hfiltered
  rwa [List.forall₂_eq_eq_eq] at hpositions

theorem initialFrom_bare (m : Model) (column : Nat) (cs : List ColumnData) (xs : List Binary64) :
    m.bare.initialFrom column cs xs = m.initialFrom column cs xs := by
  induction cs generalizing column xs with
  | nil => rfl
  | cons c cs ih =>
    cases xs with
    | nil => rfl
    | cons x xs =>
      simp only [initialFrom, ih]
      rfl

/-- Initial values do not depend on rows. -/
theorem startValues_bare (m : Model) (config : Config) : m.bare.startValues config = m.startValues config := by
  have hstart : m.bare.start = m.start := rfl
  have hcolumns : m.bare.columnData = m.columnData := rfl
  unfold startValues
  simp only [hstart, hcolumns, initialFrom_bare]
  rfl

/-- **Models that look the same are solved the same**, by any engine. -/
theorem Alike.solve_eq (h : m.Alike m') (engine : Engine) (config : Config) (timeLimit : Arg) (clock : Clock)
    (read : Nat) :
    m.solve engine config timeLimit clock read = m'.solve engine config timeLimit clock read := by
  have hempty : m.rows.isEmpty = m'.rows.isEmpty := by
    rw [Bool.eq_iff_iff, List.isEmpty_iff_length_eq_zero, List.isEmpty_iff_length_eq_zero,
      h.rows.length_eq]
  have hbox := h.eq_of_bare solveBox fun _ => rfl
  have hfallback := h.eq_of_bare fallback fun _ => rfl
  have hstart := h.eq_of_bare (startValues · config) (startValues_bare · config)
  have hcall := h.eq_of_bare callEngine fun _ => rfl
  simp only [solve, hempty, h.translate_eq, h.violated_eq, hbox, hfallback, hstart, hcall]

end Milp.Model
