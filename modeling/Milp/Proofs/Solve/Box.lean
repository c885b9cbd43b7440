import Mathlib
import Milp.Proofs.Program.Translation
import Milp.Proofs.Solve.Column
import Milp.Solve.Engine

/-!
# Answers without an engine are right

A model whose rows do not matter is solved column by column, and a model with a row that cannot hold is not
solved at all. Both ways the outcome is exactly right: infeasible without feasible points, unbounded
where the objective has no upper bound over them, and otherwise a best point.

* `Model.Answers` — an outcome is right for a model.
* `exists_admitted_iff`, `exists_columnsValue_gt` and `columnsValue_le` — the columns side by side.
* `answers_solveBox` — the closed form, where the rows hold at every point.
* `solve_quiet_iff` — when no engine is called, and what is answered then.
* `solve_without_engine` — the whole of it, for reachable models.
-/

namespace Milp.Model

/-- **A right outcome.** The solution matters only where it has to be a best point. -/
structure Answers (m : Model) (o : Outcome) : Prop where
  infeasible : o.status = .infeasible ↔ ¬ ∃ x, m.Feasible x
  unbounded : o.status = .unbounded ↔ (∃ x, m.Feasible x) ∧ m.Grows
  otherwise : o.status ≠ .infeasible → o.status ≠ .unbounded →
    o.status = .optimal ∧ (∀ v ∈ o.solution, v.isFinite = true) ∧
      m.IsOptimum (o.solution.map Binary64.toRat)

namespace Answers

variable {m : Model} {o : Outcome}

theorem of_infeasible (hstatus : o.status = .infeasible) (h : ¬ ∃ x, m.Feasible x) :
    m.Answers o where
  infeasible := iff_of_true hstatus h
  unbounded := by
    rw [hstatus]
    exact iff_of_false nofun fun hgrows => h hgrows.1
  otherwise := fun hne => absurd hstatus hne

theorem of_unbounded (hstatus : o.status = .unbounded) (h : ∃ x, m.Feasible x) (hgrows : m.Grows) :
    m.Answers o where
  infeasible := by
    rw [hstatus]
    exact iff_of_false nofun fun hnone => hnone h
  unbounded := iff_of_true hstatus ⟨h, hgrows⟩
  otherwise := fun _ hne => absurd hstatus hne

/-- A best point rules the other two outcomes out. -/
theorem of_optimum (hstatus : o.status = .optimal) (hfinite : ∀ v ∈ o.solution, v.isFinite = true)
    (h : m.IsOptimum (o.solution.map Binary64.toRat)) : m.Answers o where
  infeasible := by
    rw [hstatus]
    exact iff_of_false nofun fun hnone => hnone ⟨_, h.feasible⟩
  unbounded := by
    rw [hstatus]
    exact iff_of_false nofun fun hgrows => h.not_grows hgrows.2
  otherwise := fun _ _ => ⟨hstatus, hfinite, h⟩

end Answers

/-! ## Columns side by side -/

/-- The objective value of columns at a point. -/
def columnsValue (cs : List ColumnData) (x : Point) : ℚ :=
  (List.zipWith (fun c q => c.objective.toRat * q) cs x).sum

theorem columnsValue_cons (c : ColumnData) (cs : List ColumnData) (q : ℚ) (x : Point) :
    columnsValue (c :: cs) (q :: x) = c.objective.toRat * q + columnsValue cs x := by
  rw [columnsValue, List.zipWith_cons_cons, List.sum_cons]
  rfl

theorem value_eq {m : Model} (hm : m.WellFormed) (x : Point) :
    m.value x = columnsValue m.columnData x := by
  rw [value, ← hm.map_objective, List.zipWith_map_left]
  rfl

variable {cs : List ColumnData}

/-- **Some point is admitted** if no column is empty, and only then. -/
theorem exists_admitted_iff (hcs : ∀ c ∈ cs, c.Sound) :
    (∃ x, List.Forall₂ ColumnData.Admits cs x) ↔ ¬ cs.any ColumnData.isEmpty = true := by
  induction cs with
  | nil => exact iff_of_true ⟨[], .nil⟩ (by simp)
  | cons c cs ih =>
    obtain ⟨hc, hrest⟩ := List.forall_mem_cons.mp hcs
    rw [List.any_cons, Bool.or_eq_true, not_or, ← ih hrest, ColumnData.isEmpty_iff hc.range, not_forall]
    constructor
    · rintro ⟨x, hx⟩
      cases hx with
      | cons hq htail => exact ⟨⟨_, not_not.mpr hq⟩, ⟨_, htail⟩⟩
    · rintro ⟨⟨q, hq⟩, x, hx⟩
      exact ⟨q :: x, .cons (not_not.mp hq) hx⟩

/-- **One unbounded column is enough** for objective values above every number. -/
theorem exists_columnsValue_gt (hcs : ∀ c ∈ cs, c.Sound) (hempty : ¬ cs.any ColumnData.isEmpty = true)
    (hgrows : cs.any ColumnData.isUnbounded = true) (B : ℚ) :
    ∃ x, List.Forall₂ ColumnData.Admits cs x ∧ B < columnsValue cs x := by
  induction cs generalizing B with
  | nil => cases hgrows
  | cons c cs ih =>
    obtain ⟨hc, hrest⟩ := List.forall_mem_cons.mp hcs
    rw [List.any_cons, Bool.or_eq_true, not_or] at hempty
    obtain ⟨-, hq⟩ := ColumnData.admits_clip hc.range hempty.1
    rw [List.any_cons, Bool.or_eq_true] at hgrows
    rcases hgrows with hgrows | hgrows
    · -- the other columns stay where they are
      obtain ⟨x, hx⟩ := (exists_admitted_iff hrest).mpr hempty.2
      obtain ⟨q, hq, hlt⟩ := ColumnData.exists_above hc hgrows hq (B - columnsValue cs x)
      refine ⟨q :: x, .cons hq hx, ?_⟩
      rw [columnsValue_cons]
      linarith
    · -- the first column stays where it is
      generalize (Binary64.zero.clip c.innerLower c.innerUpper).toRat = q at hq
      obtain ⟨x, hx, hlt⟩ := ih hrest hempty.2 hgrows (B - c.objective.toRat * q)
      refine ⟨q :: x, .cons hq hx, ?_⟩
      rw [columnsValue_cons]
      linarith

/-- The best values of all columns, side by side. -/
theorem forall_isBest (hcs : ∀ c ∈ cs, c.Sound) (hempty : ¬ cs.any ColumnData.isEmpty = true)
    (hbounded : ¬ cs.any ColumnData.isUnbounded = true) : ∀ c ∈ cs, c.IsBest c.best := by
  intro c hc
  refine ColumnData.best_spec (hcs c hc) (fun h => hempty ?_) (fun h => hbounded ?_)
  · exact List.any_eq_true.mpr ⟨c, hc, h⟩
  · exact List.any_eq_true.mpr ⟨c, hc, h⟩

/-- **Best values make an admitted point.** -/
theorem forall₂_admits_best (h : ∀ c ∈ cs, c.IsBest c.best) :
    List.Forall₂ ColumnData.Admits cs (cs.map fun c => c.best.toRat) := by
  induction cs with
  | nil => exact .nil
  | cons c cs ih =>
    obtain ⟨hc, hrest⟩ := List.forall_mem_cons.mp h
    exact .cons hc.admits (ih hrest)

/-- **No admitted point is better** than the one of best values. -/
theorem columnsValue_le (h : ∀ c ∈ cs, c.IsBest c.best) {x : Point}
    (hx : List.Forall₂ ColumnData.Admits cs x) :
    columnsValue cs x ≤ columnsValue cs (cs.map fun c => c.best.toRat) := by
  induction hx with
  | nil => exact le_rfl
  | cons hq hx ih =>
    obtain ⟨hc, hrest⟩ := List.forall_mem_cons.mp h
    rw [List.map_cons, columnsValue_cons, columnsValue_cons]
    exact add_le_add (hc.greatest _ hq) (ih hrest)

/-! ## The closed form -/

variable {m : Model}

theorem WellFormed.sound_columns (hm : m.WellFormed) (hI : Binary64.zero.lt m.infinity = true) :
    ∀ c ∈ m.columnData, c.Sound :=
  fun _ hc => ⟨(hm.isBox hI hc).isRange, hm.objective_finite _ (mem_zip_of_mem_columnData hc).2⟩

/-- **The closed form is right** where the rows hold at every point. -/
theorem answers_solveBox (hm : m.WellFormed) (hI : m.infinity = Binary64.infinity)
    (hrows : ∀ x, ∀ r ∈ m.rows, r.Holds x) : m.Answers m.solveBox := by
  have hfeasible : ∀ x, m.Feasible x ↔ List.Forall₂ ColumnData.Admits m.columnData x :=
    fun x => ⟨fun h => h.columns, fun h => ⟨h, hrows x⟩⟩
  have hsound := hm.sound_columns (hI ▸ zero_lt_infinity)
  have hexists : (∃ x, m.Feasible x) ↔ ¬ m.columnData.any ColumnData.isEmpty = true := by
    rw [← exists_admitted_iff hsound]
    exact exists_congr hfeasible
  by_cases hempty : m.columnData.any ColumnData.isEmpty = true
  · -- some column admits nothing
    have hstatus : m.solveBox.status = .infeasible := by rw [solveBox, if_pos hempty]
    have hnone : ¬ ∃ x, m.Feasible x := fun h => hexists.mp h hempty
    exact .of_infeasible hstatus hnone
  have hsome := hexists.mpr hempty
  by_cases hgrows : m.columnData.any ColumnData.isUnbounded = true
  · have hstatus : m.solveBox.status = .unbounded := by
      rw [solveBox, if_neg hempty, if_pos hgrows]
    have hunbounded : m.Grows := by
      intro B
      obtain ⟨x, hx, hlt⟩ := exists_columnsValue_gt hsound hempty hgrows B
      exact ⟨x, (hfeasible x).mpr hx, by rwa [value_eq hm]⟩
    exact .of_unbounded hstatus hsome hunbounded
  · have hbox : m.solveBox =
        ⟨.optimal, m.columnData.map ColumnData.best, "box optimum", Binary64.zero, none⟩ := by
      rw [solveBox, if_neg hempty, if_neg hgrows]
    have hbest := forall_isBest hsound hempty hgrows
    have hoptimum : m.IsOptimum ((m.columnData.map ColumnData.best).map Binary64.toRat) := by
      rw [List.map_map]
      refine ⟨(hfeasible _).mpr (forall₂_admits_best hbest), fun y hy => ?_⟩
      rw [value_eq hm, value_eq hm]
      exact columnsValue_le hbest ((hfeasible y).mp hy)
    rw [hbox]
    refine .of_optimum rfl (fun v hv => ?_) hoptimum
    obtain ⟨c, hc, rfl⟩ := List.mem_map.mp hv
    exact (hbest c hc).finite

/-! ## Solving without an engine -/

/-- **A row that cannot hold**: no coefficient counts, and zero lies outside its bounds. -/
def IsViolated (r : BoundedRow) : Prop :=
  (∀ c ∈ r.row.coeffs, c.toRat = 0) ∧ ¬ (r.lo.IsBelow 0 ∧ r.hi.IsAbove 0)

/-- **A row that says nothing**: it has no finite side, or no coefficient counts and zero lies within its
bounds. -/
def IsIdle (r : BoundedRow) : Prop :=
  (r.lo = Binary64.negInfinity ∧ r.hi = Binary64.infinity) ∨
    ((∀ c ∈ r.row.coeffs, c.toRat = 0) ∧ r.lo.IsBelow 0 ∧ r.hi.IsAbove 0)

theorem violated_ne_nil_iff (hm : m.WellFormed) :
    m.violated ≠ [] ↔ ∃ r ∈ m.rows, IsViolated r := by
  constructor
  · intro h
    obtain ⟨k, hk⟩ := List.exists_mem_of_ne_nil _ h
    obtain ⟨r, hget, hviolated⟩ := (mem_violated_iff hm).mp hk
    exact ⟨r, List.mem_of_getElem? hget, hviolated⟩
  · rintro ⟨r, hr, hviolated⟩
    obtain ⟨k, hget⟩ := List.mem_iff_getElem?.mp hr
    exact List.ne_nil_of_mem ((mem_violated_iff hm).mpr ⟨r, hget, hviolated⟩)

/-- A row makes no constraint if it has no nonzeros or no finite side. -/
theorem rowConstraints_eq_nil_iff (hI : m.infinity = Binary64.infinity) {r : BoundedRow} {n : ℕ}
    (hr : r.Fits n) (position : ℕ) : m.rowConstraints position r = [] ↔
      (∀ c ∈ r.row.coeffs, c.toRat = 0) ∨ (r.lo = Binary64.negInfinity ∧ r.hi = Binary64.infinity) := by
  rw [← nonzeroTerms_eq_nil_iff hr.row]
  by_cases hterms : nonzeroTerms r.row = []
  · exact iff_of_true (by simp [rowConstraints, hterms]) (.inl hterms)
  have hterms' : ¬ (nonzeroTerms r.row).isEmpty = true := by simpa using hterms
  rw [or_iff_right hterms]
  simp only [rowConstraints]
  rw [if_neg hterms']
  by_cases hsame : r.lo.same r.hi = true
  · rw [if_pos hsame]
    refine iff_of_false (List.cons_ne_nil _ _) fun h => ?_
    have hfinite := (hr.range.finite_of_same hsame).1
    rw [h.1] at hfinite
    cases hfinite
  · rw [if_neg hsame, List.append_eq_nil_iff, isInfinite_eq hI, isInfinite_eq hI,
      ← Binary64.isInfinite_iff_eq hr.range.lo_cases rfl,
      ← Binary64.isInfinite_iff_eq hr.range.hi_cases rfl]
    simp only [ite_eq_left_iff, List.cons_ne_nil, imp_false, not_not]

theorem constraints_eq_nil_iff (hm : m.WellFormed) (hI : m.infinity = Binary64.infinity) :
    m.program.constraints = [] ↔ ∀ r ∈ m.rows, (∀ c ∈ r.row.coeffs, c.toRat = 0) ∨
      (r.lo = Binary64.negInfinity ∧ r.hi = Binary64.infinity) := by
  rw [← forall_mem_zipIdx_iff (fun r : BoundedRow => (∀ c ∈ r.row.coeffs, c.toRat = 0) ∨
    (r.lo = Binary64.negInfinity ∧ r.hi = Binary64.infinity)), program, List.flatMap_eq_nil_iff]
  refine forall₂_congr fun p hp => ?_
  exact rowConstraints_eq_nil_iff hI (hm.rows_fit _ (List.fst_mem_of_mem_zipIdx hp)) p.2

/-- **No row matters** if none is violated and none makes a constraint. -/
theorem idle_rows_iff (hm : m.WellFormed) (hI : m.infinity = Binary64.infinity) :
    (m.violated = [] ∧ m.program.constraints = []) ↔ ∀ r ∈ m.rows, IsIdle r := by
  have hviolated : m.violated = [] ↔ ∀ r ∈ m.rows, ¬ IsViolated r := by
    rw [← not_iff_not, ← ne_eq, violated_ne_nil_iff hm]
    push Not
    rfl
  rw [hviolated, constraints_eq_nil_iff hm hI, ← forall₂_and]
  refine forall₂_congr fun r hr => ?_
  unfold IsIdle IsViolated
  constructor
  · rintro ⟨hholds, hzero | hfree⟩
    · exact .inr ⟨hzero, not_not.mp fun h => hholds ⟨hzero, h⟩⟩
    · exact .inl hfree
  · rintro (hfree | ⟨hzero, hholds⟩)
    · refine ⟨fun h => h.2 ?_, .inr hfree⟩
      rw [hfree.1, hfree.2]
      exact ⟨Binary64.isBelow_negInfinity, Binary64.isAbove_infinity⟩
    · exact ⟨fun h => h.2 hholds, .inl hzero⟩

variable (engine : Engine) (config : Config) (timeLimit : Arg) (clock : Clock) (read : ℕ)

theorem calls_callEngine (call : EngineCall) (started : Binary64) :
    (m.callEngine engine call started clock read).calls = [call] := by
  unfold callEngine
  dsimp only
  split <;> rfl

/-- Work that ends well without a call has the one outcome that it has. -/
theorem quiet_iff (o o' : Outcome) (readings : ℕ) (records : List Log.Record) :
    ((⟨.ok o', readings, records, []⟩ : Traced (Except Error Outcome)).result = .ok o ∧
      (⟨.ok o', readings, records, []⟩ : Traced (Except Error Outcome)).calls = []) ↔ o = o' := by
  rw [and_iff_left rfl, Except.ok.injEq, eq_comm]

/-- **When no engine is called, and what is answered then**: the closed form if no row matters, and
"infeasible" if some row cannot hold. -/
theorem solve_quiet_iff (hm : m.WellFormed) (hI : m.infinity = Binary64.infinity) (o : Outcome) :
    ((m.solve engine config timeLimit clock read).result = .ok o ∧
      (m.solve engine config timeLimit clock read).calls = []) ↔
    (m.violated = [] ∧ m.program.constraints = [] ∧ o = m.solveBox) ∨
      (m.violated ≠ [] ∧ o = ⟨.infeasible, m.fallback,
        s!"{m.violated.length} empty row(s) cannot be satisfied",
        (clock (read + 1)).sub (clock read), none⟩) := by
  by_cases hrows : m.rows = []
  · have hviolated : m.violated = [] := by
      rw [violated, hrows]
      rfl
    have hconstraints : m.program.constraints = [] := by
      rw [program, hrows]
      rfl
    unfold solve
    dsimp only
    rw [if_pos (List.isEmpty_iff.mpr hrows), quiet_iff]
    simp [hviolated, hconstraints]
  unfold solve
  dsimp only
  rw [if_neg (by simpa using hrows), translate_eq hm hI]
  dsimp only
  by_cases hviolated : m.violated = []
  · rw [if_neg (by simp [hviolated])]
    by_cases hconstraints : m.program.constraints = []
    · rw [if_pos (by simp [hconstraints]), quiet_iff]
      simp [hviolated, hconstraints]
    · -- from here on either the initial values are refused, or the engine is called
      rw [if_neg (by simpa using hconstraints)]
      refine iff_of_false ?_ (by simp [hviolated, hconstraints])
      rintro ⟨hresult, hcalls⟩
      cases hstart : m.startValues config with
      | error e =>
        rw [hstart] at hresult
        cases hresult
      | ok start =>
        rw [hstart] at hcalls
        dsimp only at hcalls
        rw [calls_callEngine] at hcalls
        cases hcalls
  · rw [if_pos (by simpa using hviolated), quiet_iff, or_iff_right fun h => hviolated h.1,
      and_iff_right hviolated]

/-- **Answers without an engine are exactly right.** On a reachable model whose infinity is that of the
format, solving returns without a call of the engine if there are no rows, some row cannot hold, or
all rows say nothing, and only then; and the outcome is right. -/
theorem solve_without_engine (hm : m.Reachable) (hI : m.infinity = Binary64.infinity) :
    ((∃ o, (m.solve engine config timeLimit clock read).result = .ok o ∧
        (m.solve engine config timeLimit clock read).calls = []) ↔
      m.rows = [] ∨ (∃ r ∈ m.rows, IsViolated r) ∨ ∀ r ∈ m.rows, IsIdle r) ∧
    ∀ o, (m.solve engine config timeLimit clock read).result = .ok o →
      (m.solve engine config timeLimit clock read).calls = [] → m.Answers o := by
  have hwf := hm.wellFormed
  have hquiet := solve_quiet_iff engine config timeLimit clock read hwf hI
  constructor
  · constructor
    · rintro ⟨o, ho⟩
      rcases (hquiet o).mp ho with ⟨hviolated, hconstraints, -⟩ | ⟨hviolated, -⟩
      · exact .inr (.inr ((idle_rows_iff hwf hI).mp ⟨hviolated, hconstraints⟩))
      · exact .inr (.inl ((violated_ne_nil_iff hwf).mp hviolated))
    · intro h
      have hor : (∃ r ∈ m.rows, IsViolated r) ∨ ∀ r ∈ m.rows, IsIdle r := by
        refine h.elim (fun hrows => .inr ?_) id
        rw [hrows]
        exact List.forall_mem_nil _
      rcases hor with hviolated | hidle
      · exact ⟨_, (hquiet _).mpr (.inr ⟨(violated_ne_nil_iff hwf).mpr hviolated, rfl⟩)⟩
      · obtain ⟨hviolated, hconstraints⟩ := (idle_rows_iff hwf hI).mpr hidle
        exact ⟨_, (hquiet _).mpr (.inl ⟨hviolated, hconstraints, rfl⟩)⟩
  · intro o hresult hcalls
    rcases (hquiet o).mp ⟨hresult, hcalls⟩ with ⟨hviolated, hconstraints, rfl⟩ | ⟨hviolated, rfl⟩
    · refine answers_solveBox hwf hI fun x => (rows_hold_iff hwf hI).mpr ⟨hviolated, ?_⟩
      rw [hconstraints]
      exact List.forall_mem_nil _
    · have hnone : ¬ ∃ x, m.Feasible x := fun ⟨x, hx⟩ =>
        hviolated ((rows_hold_iff hwf hI).mp hx.rows).1
      exact .of_infeasible rfl hnone

/-- One column `x₀ ≥ 0` and the free row `-∞ ≤ x₀ ≤ ∞`: the outcome is optimal without a call, and right.
With the row `1 ≤ 0` behind it the outcome is infeasible, and right again. -/
theorem solve_without_engine_of_free_row :
    let one := Binary64.one
    let free : BoundedRow := ⟨.ofArrays [0] [one], Binary64.negInfinity, Binary64.infinity⟩
    let empty : BoundedRow := ⟨.ofArrays [] [], one, one⟩
    let m := (blank 1 0 Binary64.infinity).appendAll [free]
    let m' := (blank 1 0 Binary64.infinity).appendAll [free, empty]
    let solved (m : Model) := m.solve (fun _ => .failed .frozen) .plain .absent (fun _ => one) 0
    (∃ o, (solved m).result = .ok o ∧ (solved m).calls = [] ∧ o.status = .optimal ∧ m.Answers o) ∧
      ∃ o, (solved m').result = .ok o ∧ (solved m').calls = [] ∧ o.status = .infeasible ∧
        m'.Answers o := by
  intro one free empty m m' solved
  have hwidth : 1 < entryLimit := by decide +kernel
  have hm : m.Reachable := reachable_appendAll hwidth _ (by decide +kernel)
  have hm' : m'.Reachable := reachable_appendAll hwidth _ (by decide +kernel)
  have hzero : ¬ (one.IsBelow 0 ∧ one.IsAbove 0) := by
    rw [← excludesZero_iff (r := empty) (n := 0) (by decide +kernel)]
    decide +kernel
  have hquiet := solve_without_engine (fun _ => .failed .frozen) .plain .absent (fun _ => one) 0
    hm rfl
  have hquiet' := solve_without_engine (fun _ => .failed .frozen) .plain .absent (fun _ => one) 0
    hm' rfl
  constructor
  · have hidle : ∀ r ∈ m.rows, IsIdle r := by
      intro r hr
      rw [List.mem_singleton.mp hr]
      exact .inl ⟨rfl, rfl⟩
    obtain ⟨o, hresult, hcalls⟩ := hquiet.1.mpr (.inr (.inr hidle))
    have hright := hquiet.2 o hresult hcalls
    refine ⟨o, hresult, hcalls, ?_, hright⟩
    have hstatus : (solved m).result.toOption.map Outcome.status = some .optimal := by decide +kernel
    rw [hresult] at hstatus
    exact Option.some.inj hstatus
  · have hviolated : ∃ r ∈ m'.rows, IsViolated r :=
      ⟨empty, List.mem_cons_of_mem _ List.mem_cons_self, List.forall_mem_nil _, hzero⟩
    obtain ⟨o, hresult, hcalls⟩ := hquiet'.1.mpr (.inr (.inl hviolated))
    refine ⟨o, hresult, hcalls, ?_, hquiet'.2 o hresult hcalls⟩
    have hstatus : (solved m').result.toOption.map Outcome.status = some .infeasible := by decide +kernel
    rw [hresult] at hstatus
    exact Option.some.inj hstatus

end Milp.Model
