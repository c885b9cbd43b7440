import Mathlib
import Milp.Proofs.Solve.Box
import Milp.Proofs.Solve.Start

/-!
# What solving comes to

Everything that solving a model can do, said once: the closed form, a row that cannot hold, start values that are
refused, an engine that fails, and an engine that answers. Only an engine's own values can lie outside the
bounds of a column.

* `Model.Worked` — the five ways: `worked`.
* `EngineAnswer.Writes` — an engine gives a column a value.
* `solution_of_solve` — a solution has an entry for every column, within its bounds unless the engine wrote it.
* `timeLimit_of_solve` and `result_of_failed` — time-outs need a time limit, and failures are passed on.
* `solve_without_start` — for an engine that does not look at initial values, start values make no difference
  to how solving ends, as long as they are accepted.
-/

namespace Milp

/-- **An engine writes the value `v` for the column `j`.** -/
def EngineAnswer.Writes (answer : EngineAnswer) (j : ℕ) (v : Binary64) : Prop :=
  ∃ status solutionStatus values a, answer = .answered status solutionStatus values ∧ values[j]? = some a ∧
    Model.readValue a = .ok (some v)

/-- **What a session goes by**: the status, and the number of entries of the solution. -/
def Outcome.shape (o : Outcome) : SolveStatus × ℕ := (o.status, o.solution.length)

/-- **An engine that does not look at initial values.** -/
def Engine.IgnoresInitial (engine : Engine) : Prop :=
  ∀ call warm initial, engine { call with warmStart := warm, initial := initial } = engine call

namespace Model

variable {m : Model} {engine : Engine} {config : Config} {timeLimit : Arg} {clock : Clock} {read : ℕ}

/-! ## The five ways -/

/-- **What solving a model comes to.** -/
inductive Worked (m : Model) (engine : Engine) (config : Config) (timeLimit : Arg) :
    Traced (Except Error Outcome) → Prop where
  /-- no row matters -/
  | box (readings : ℕ) : Worked m engine config timeLimit ⟨.ok m.solveBox, readings, [], []⟩
  /-- some row cannot hold -/
  | violated (message : String) (elapsed : Binary64) (readings : ℕ) (records : List Log.Record) :
      Worked m engine config timeLimit
        ⟨.ok ⟨.infeasible, m.fallback, message, elapsed, none⟩, readings, records, []⟩
  /-- the start values are refused -/
  | refused {e : Error} (hstart : m.startValues config = .error e) (readings : ℕ) :
      Worked m engine config timeLimit ⟨.error e, readings, [], []⟩
  /-- the engine fails, or answers with codes that are not known -/
  | failed {start : Bool × List (Option Binary64)} {e : Error} (hstart : m.startValues config = .ok start)
      (hanswer : readAnswer (engine (engineCall config timeLimit m.program start)) = .error e) (readings : ℕ)
      (records : List Log.Record) : Worked m engine config timeLimit
        ⟨.error e, readings, records, [engineCall config timeLimit m.program start]⟩
  /-- the engine answers -/
  | answered {start : Bool × List (Option Binary64)} {codes : Arg × Arg} {values : List Arg}
      (hstart : m.startValues config = .ok start)
      (hanswer : readAnswer (engine (engineCall config timeLimit m.program start)) = .ok (codes, values))
      (elapsed : Binary64) (readings : ℕ) (records : List Log.Record) : Worked m engine config timeLimit
        ⟨m.outcomeOf start.2 timeLimit elapsed codes values, readings, records,
          [engineCall config timeLimit m.program start]⟩

theorem worked (hm : m.WellFormed) (hI : m.infinity = Binary64.infinity) (engine : Engine) (config : Config)
    (timeLimit : Arg) (clock : Clock) (read : ℕ) :
    Worked m engine config timeLimit (m.solve engine config timeLimit clock read) := by
  unfold solve
  dsimp only
  rw [translate_eq hm hI]
  dsimp only
  split
  · exact .box _
  split
  · exact .violated _ _ _ _
  split
  · exact .box _
  cases hstart : m.startValues config with
  | error e => exact .refused hstart _
  | ok start =>
    dsimp only
    unfold callEngine
    dsimp only
    cases hanswer : readAnswer (engine (engineCall config timeLimit m.program start)) with
    | error e => exact .failed hstart hanswer _ _
    | ok given => exact .answered hstart hanswer _ _ _

/-! ## Solutions -/

/-- **The closed form keeps to all bounds.** -/
theorem forall₂_contains_solveBox (hm : m.WellFormed) (hI : m.infinity = Binary64.infinity) :
    List.Forall₂ ColumnData.Contains m.columnData m.solveBox.solution := by
  have hfallback := forall₂_contains_fallback hm hI
  unfold solveBox
  split
  · exact hfallback
  rename_i hempty
  split
  · exact hfallback
  rename_i hbounded
  refine List.forall₂_map_right_iff.mpr (List.forall₂_same.mpr fun c hc => ?_)
  have hsound := hm.sound_columns (hI ▸ zero_lt_infinity) c hc
  have hbest := ColumnData.best_spec hsound (fun h => hempty (List.any_eq_true.mpr ⟨c, hc, h⟩))
    fun h => hbounded (List.any_eq_true.mpr ⟨c, hc, h⟩)
  exact ColumnData.contains_of_bounds hsound.range hbest.finite hbest.admits.lower hbest.admits.upper

theorem length_fillIn (xs : List Binary64) (vs : List (Option Binary64)) : (fillIn xs vs).length = xs.length := by
  fun_induction fillIn xs vs with
  | case1 x xs v vs ih => rw [List.length_cons, ih, List.length_cons]
  | case2 x xs vs ih => rw [List.length_cons, ih, List.length_cons]
  | case3 => rfl
  | case4 => rfl

/-- What is filled in is a given value or the one from before. -/
theorem getElem?_fillIn {xs : List Binary64} {vs : List (Option Binary64)} {j : ℕ} {v : Binary64}
    (h : (fillIn xs vs)[j]? = some v) : vs[j]? = some (some v) ∨ xs[j]? = some v := by
  fun_induction fillIn xs vs generalizing j with
  | case1 x xs w vs ih =>
    cases j with
    | zero => exact .inl (congrArg some h)
    | succ j => exact ih h
  | case2 x xs vs ih =>
    cases j with
    | zero => exact .inr h
    | succ j => exact ih h
  | case3 => exact .inr h
  | case4 => cases h

/-- What stands there after overwriting was written or stood there before. -/
theorem getElem?_overwrite {initial values : List (Option Binary64)} {j : ℕ} {v? : Option Binary64}
    (h : (overwrite initial values)[j]? = some v?) : values[j]? = some v? ∨ initial[j]? = some v? := by
  fun_induction overwrite initial values generalizing j with
  | case1 w initial v values ih =>
    cases j with
    | zero => exact .inl h
    | succ j => exact ih h
  | case2 => exact .inr h
  | case3 => cases h

/-- Related lists have related entries. -/
theorem rel_of_getElem? {α β : Type} {R : α → β → Prop} {xs : List α} {ys : List β} (h : List.Forall₂ R xs ys)
    {j : ℕ} {x : α} {y : β} (hx : xs[j]? = some x) (hy : ys[j]? = some y) : R x y := by
  induction h generalizing j with
  | nil => cases hx
  | cons hxy _ ih =>
    cases j with
    | zero =>
      cases hx
      cases hy
      exact hxy
    | succ j => exact ih hx hy

/-- What one step makes of many values, entry by entry. -/
theorem getElem?_of_mapM {α β : Type} {f : α → Except Error β} {xs : List α} {ys : List β}
    (h : xs.mapM f = .ok ys) {j : ℕ} {y : β} (hy : ys[j]? = some y) : ∃ x, xs[j]? = some x ∧ f x = .ok y := by
  have hall := mapM_eq_ok_iff.mp h
  obtain ⟨hj, rfl⟩ := List.getElem?_eq_some_iff.mp hy
  have hj' : j < xs.length := hall.length_eq ▸ hj
  exact ⟨xs[j], List.getElem?_eq_getElem hj', hall.get hj' hj⟩

/-- **An engine's outcome** has an entry for every column, and the entries that it did not write are within the
bounds. -/
theorem solution_of_outcomeOf (hm : m.WellFormed) (hI : m.infinity = Binary64.infinity)
    {initial : List (Option Binary64)}
    (hinitial : List.Forall₂ (fun c v? => ∀ v, v? = some v → c.Contains v) m.columnData initial)
    {elapsed : Binary64} {codes : Arg × Arg} {values : List Arg} {o : Outcome}
    (h : m.outcomeOf initial timeLimit elapsed codes values = .ok o) :
    o.solution.length = m.columns ∧ ∀ (j : ℕ) (c : ColumnData) (v : Binary64),
      m.columnData[j]? = some c → o.solution[j]? = some v →
        (∃ a, values[j]? = some a ∧ readValue a = .ok (some v)) ∨ c.Contains v := by
  have hfallback := forall₂_contains_fallback hm hI
  obtain ⟨status, -, h⟩ := bind_eq_ok_iff.mp h
  obtain ⟨read, hread, h⟩ := bind_eq_ok_iff.mp h
  cases h
  refine ⟨?_, fun j c v hc hv => ?_⟩
  · show (fillIn m.fallback (overwrite initial read)).length = m.columns
    rw [length_fillIn, ← hfallback.length_eq, length_columnData hm]
  · rcases getElem?_fillIn hv with hgiven | hkept
    · rcases getElem?_overwrite hgiven with hwritten | hstart
      · obtain ⟨a, ha, hvalue⟩ := getElem?_of_mapM hread hwritten
        obtain ⟨hj, -⟩ := List.getElem?_eq_some_iff.mp ha
        rw [List.length_take] at hj
        rw [List.getElem?_take_of_lt (by omega)] at ha
        exact .inl ⟨a, ha, hvalue⟩
      · exact .inr (rel_of_getElem? hinitial hc hstart v rfl)
    · exact .inr (rel_of_getElem? hfallback hc hkept)

/-- **Every solution has an entry for every column**, and each entry is within the bounds of its column or was
written by the engine. -/
theorem solution_of_solve (hm : m.WellFormed) (hI : m.infinity = Binary64.infinity) {o : Outcome}
    (h : (m.solve engine config timeLimit clock read).result = .ok o) :
    o.solution.length = m.columns ∧ ∀ (j : ℕ) (c : ColumnData) (v : Binary64),
      m.columnData[j]? = some c → o.solution[j]? = some v →
        (∃ call ∈ (m.solve engine config timeLimit clock read).calls, (engine call).Writes j v) ∨
          c.Contains v := by
  have hworked := worked hm hI engine config timeLimit clock read
  generalize m.solve engine config timeLimit clock read = work at hworked h
  have hkept : ∀ xs : List Binary64, List.Forall₂ ColumnData.Contains m.columnData xs →
      xs.length = m.columns ∧
        ∀ (j : ℕ) (c : ColumnData) (v : Binary64), m.columnData[j]? = some c → xs[j]? = some v → c.Contains v :=
    fun xs hxs => ⟨by rw [← hxs.length_eq, length_columnData hm], fun j c v => rel_of_getElem? hxs⟩
  cases hworked with
  | refused | failed => cases h
  | box =>
    cases h
    obtain ⟨hlength, hentries⟩ := hkept _ (forall₂_contains_solveBox hm hI)
    exact ⟨hlength, fun j c v hc hv => .inr (hentries j c v hc hv)⟩
  | violated =>
    cases h
    obtain ⟨hlength, hentries⟩ := hkept _ (forall₂_contains_fallback hm hI)
    exact ⟨hlength, fun j c v hc hv => .inr (hentries j c v hc hv)⟩
  | @answered start codes values hstart hanswer elapsed readings records =>
    obtain ⟨hlength, hentries⟩ := solution_of_outcomeOf hm hI (forall₂_contains_initial hm hI hstart) h
    refine ⟨hlength, fun j c v hc hv => (hentries j c v hc hv).imp_left ?_⟩
    rintro ⟨a, ha, hvalue⟩
    refine ⟨_, List.mem_singleton_self _, ?_⟩
    generalize engine (engineCall config timeLimit m.program start) = answer at hanswer ⊢
    cases answer with
    | failed cause => cases hanswer
    | answered status solutionStatus given =>
      obtain ⟨read, -, hpair⟩ := bind_eq_ok_iff.mp hanswer
      cases hpair
      exact ⟨status, solutionStatus, values, a, rfl, ha, hvalue⟩

/-! ## Statuses -/

/-- Without a time limit no answer counts as a time-out. -/
theorem classify_absent {status solutionStatus elapsed : Arg} {s : SolveStatus}
    (h : classify status solutionStatus .absent elapsed = .ok s) : s ≠ .timeLimit := by
  obtain ⟨reached, hreached, h⟩ := bind_eq_ok_iff.mp h
  cases hreached
  cases h
  unfold SolveStatus.ofCodes
  split
  · simp
  · simp only [isLimited, Bool.false_eq_true, and_false, if_false]
    split
    · simp
    split <;> simp

/-- **A time-out needs a time limit.** -/
theorem timeLimit_of_solve (hm : m.WellFormed) (hI : m.infinity = Binary64.infinity) {o : Outcome}
    (h : (m.solve engine config .absent clock read).result = .ok o) : o.status ≠ .timeLimit := by
  have hworked := worked hm hI engine config .absent clock read
  generalize m.solve engine config .absent clock read = work at hworked h
  cases hworked with
  | refused | failed => cases h
  | box =>
    cases h
    unfold solveBox
    split
    · simp
    split <;> simp
  | violated =>
    cases h
    simp
  | answered =>
    obtain ⟨status, hstatus, h⟩ := bind_eq_ok_iff.mp h
    obtain ⟨values, -, h⟩ := bind_eq_ok_iff.mp h
    cases h
    exact classify_absent hstatus

/-- **An engine's failure is passed on.** -/
theorem result_of_failed (hm : m.WellFormed) (hI : m.infinity = Binary64.infinity) {call : EngineCall}
    (hcall : call ∈ (m.solve engine config timeLimit clock read).calls) {cause : Error}
    (hfailed : engine call = .failed cause) :
    (m.solve engine config timeLimit clock read).result = .error cause := by
  have hworked := worked hm hI engine config timeLimit clock read
  generalize m.solve engine config timeLimit clock read = work at hworked hcall ⊢
  cases hworked with
  | box | violated | refused => cases hcall
  | failed hstart hanswer =>
    rw [List.mem_singleton.mp hcall] at hfailed
    rw [hfailed] at hanswer
    cases hanswer
    rfl
  | answered hstart hanswer =>
    rw [List.mem_singleton.mp hcall] at hfailed
    rw [hfailed] at hanswer
    cases hanswer

/-! ## Without start values -/

/-- The model without its start values. -/
def withoutStart (m : Model) : Model := { m with start := none }

theorem WellFormed.withoutStart (hm : m.WellFormed) : m.withoutStart.WellFormed :=
  { hm with start_finite := nofun }

theorem length_fallback (hm : m.WellFormed) (hI : m.infinity = Binary64.infinity) :
    m.fallback.length = m.columns := by
  rw [← (forall₂_contains_fallback hm hI).length_eq, length_columnData hm]

/-- Start values do not matter to an engine's outcome, other than by the values themselves. -/
theorem shape_outcomeOf (hm : m.WellFormed) (hI : m.infinity = Binary64.infinity)
    (initial : List (Option Binary64)) (timeLimit : Arg) (elapsed : Binary64) (codes : Arg × Arg)
    (values : List Arg) :
    (m.outcomeOf initial timeLimit elapsed codes values).map Outcome.shape =
      (classify codes.1 codes.2 timeLimit (.float elapsed) >>= fun status =>
        (values.take m.columns).mapM readValue >>= fun _ => .ok (status, m.columns)) := by
  have hlength : ∀ vs, (fillIn m.fallback vs).length = m.columns := fun vs => by
    rw [length_fillIn, length_fallback hm hI]
  simp only [outcomeOf, map_bind, map_pure, Outcome.shape, hlength]

theorem shape_solveBox (hm : m.WellFormed) (hI : m.infinity = Binary64.infinity) :
    m.withoutStart.solveBox.shape = m.solveBox.shape := by
  have hlength := length_fallback hm hI
  have hlength' : m.withoutStart.fallback.length = m.columns := length_fallback hm.withoutStart hI
  have hcolumns : m.withoutStart.columnData = m.columnData := rfl
  unfold solveBox
  rw [hcolumns]
  split
  · simp only [Outcome.shape, hlength, hlength']
  split
  · simp only [Outcome.shape, hlength, hlength']
  · rfl

/-- **Start values that are accepted make no difference** to how solving ends, for an engine that does not look at
initial values. -/
theorem solve_without_start (hm : m.WellFormed) (hI : m.infinity = Binary64.infinity)
    (hkeeps : m.KeepsStart config) (hengine : engine.IgnoresInitial) (timeLimit : Arg) (clock : Clock)
    (read : ℕ) :
    (m.withoutStart.solve engine config timeLimit clock read).result.map Outcome.shape =
      (m.solve engine config timeLimit clock read).result.map Outcome.shape := by
  obtain ⟨start, hstart⟩ := (startValues_isOk_iff hm hI).mpr hkeeps
  have hnone : m.withoutStart.startValues config = .ok (false, List.replicate m.columns none) := rfl
  -- nothing that decides on the way looks at start values
  have hrows : m.withoutStart.rows = m.rows := rfl
  have hprogram : m.withoutStart.program = m.program := rfl
  have hviolated : m.withoutStart.violated = m.violated := rfl
  have hcall : engine (engineCall config timeLimit m.program (false, List.replicate m.columns none)) =
      engine (engineCall config timeLimit m.program start) :=
    hengine (engineCall config timeLimit m.program start) false (List.replicate m.columns none)
  unfold solve
  dsimp only
  rw [translate_eq hm hI, translate_eq hm.withoutStart hI, hrows, hprogram, hviolated]
  dsimp only
  split
  · exact congrArg Except.ok (shape_solveBox hm hI)
  split
  · simp only [Except.map, Outcome.shape, length_fallback hm hI, length_fallback hm.withoutStart hI]
    rfl
  split
  · exact congrArg Except.ok (shape_solveBox hm hI)
  rw [hnone, hstart]
  dsimp only
  unfold callEngine
  rw [hcall]
  dsimp only
  cases readAnswer (engine (engineCall config timeLimit m.program start)) with
  | error e => rfl
  | ok given =>
    dsimp only
    rw [shape_outcomeOf hm hI, shape_outcomeOf hm.withoutStart hI]
    rfl

end Model

end Milp
