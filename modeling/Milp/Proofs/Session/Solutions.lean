import Milp.Proofs.Session.Lifecycle
import Milp.Proofs.Session.Requests
import Milp.Proofs.Solve.Work

/-!
# What a session hands out

A session takes a solver's result as it comes: a solution for all columns, or a failure. Where infinity is that of
the format, whatever the solver's engine does, the solution is within the bounds of the columns as far as the
engine has not written it.

* `Stage.ofResult` — the stage that a result leads to: `solve_of_building`.
* `Life.Grounded` — the models in a session's surroundings are well-formed and keep their infinity.
* `solution_is_placed` — solutions, time-outs and failures of reachable sessions.
* `start_is_advisory_iff` — what start values can do to solving, and when they do nothing.
-/

namespace Milp

/-! ## Results and stages -/

/-- **The stage that a result leads to**: solved if a solution with an entry for every column has come back, and
failed otherwise. -/
def Stage.ofResult (dot : ScalarProduct) (m : Model) : Except Error Outcome → Stage
  | .ok o =>
    if o.status ≠ .error ∧ o.solution.length = m.columns then
      .solved m o.status o.solution (dot m.objective o.solution)
    else .failed m
  | .error _ => .failed m

namespace Stage

variable {dot : ScalarProduct} {m m' : Model} {result : Except Error Outcome} {status : SolveStatus}
  {xs : List Binary64} {score : Binary64}

/-- A result leads to a solution with an entry for every column, or to a failure. -/
theorem ofResult_cases (dot : ScalarProduct) (m : Model) (result : Except Error Outcome) :
    (∃ status xs score, ofResult dot m result = .solved m status xs score ∧ status ≠ .error ∧ xs.length = m.columns) ∨
      ofResult dot m result = .failed m := by
  cases result with
  | error e => exact .inr rfl
  | ok o =>
    unfold ofResult
    dsimp only
    split
    · rename_i h
      exact .inl ⟨_, _, _, rfl, h⟩
    · exact .inr rfl

/-- A solved stage has its status and its solution from an outcome. -/
theorem solved_ofResult (h : ofResult dot m result = .solved m' status xs score) :
    m' = m ∧ ∃ o, result = .ok o ∧ o.status = status ∧ o.solution = xs := by
  cases result with
  | error e => cases h
  | ok o =>
    unfold ofResult at h
    dsimp only at h
    split at h
    · cases h
      exact ⟨rfl, o, rfl, rfl, rfl⟩
    · cases h

/-- A status that is no error is that of an outcome. -/
theorem status?_ofResult (h : (ofResult dot m result).status? = some status) (hne : status ≠ .error) :
    ∃ o, result = .ok o ∧ o.status = status := by
  cases result with
  | error e => exact absurd (Option.some.inj h).symm hne
  | ok o =>
    unfold ofResult at h
    dsimp only at h
    split at h
    · exact ⟨o, rfl, Option.some.inj h⟩
    · exact absurd (Option.some.inj h).symm hne

/-- The status depends on the shape of an outcome only. -/
theorem status?_ofResult_congr {result' : Except Error Outcome} (hcolumns : m.columns = m'.columns)
    (h : result.map Outcome.shape = result'.map Outcome.shape) :
    (ofResult dot m result).status? = (ofResult dot m' result').status? := by
  cases result with
  | error e =>
    cases result' with
    | error e' => rfl
    | ok o' => cases h
  | ok o =>
    cases result' with
    | error e' => cases h
    | ok o' =>
      obtain ⟨hstatus, hlength⟩ := Prod.mk.inj (Except.ok.inj h)
      simp only [ofResult, hstatus, hlength, hcolumns]
      split <;> rfl

end Stage

namespace Session

variable {s : Session} {m : Model} (dot : ScalarProduct) (engine : Engine) (config : Config) (clock : Clock) (read : ℕ)

/-- **The end of solving for a solver's result.** -/
theorem finishSolve_ofResult (hs : s.stage ≠ .disposed) (m : Model) (result : Except Error Outcome)
    (elapsed : Binary64) :
    (s.finishSolve dot m (.ofResult result) elapsed).1 =
        { s with elapsed := elapsed, stage := Stage.ofResult dot m result } ∧
      ∃ status, (Stage.ofResult dot m result).status? = some status ∧
        (s.finishSolve dot m (.ofResult result) elapsed).2.2 = .ok status := by
  have hfinished := finished dot s m (.ofResult result) elapsed
  generalize (s.finishSolve dot m (.ofResult result) elapsed).1 = s',
    (s.finishSolve dot m (.ofResult result) elapsed).2.2 = answer at hfinished ⊢
  cases result with
  | error e =>
    cases hfinished with
    | late hdisposed => exact absurd hdisposed hs
    | solved _ hr | misfit _ hr | unread _ hr => cases hr
    | failed => exact ⟨rfl, .error, rfl, rfl⟩
  | ok o =>
    have hread := Arg.numberArray_ofFloats o.solution
    cases hfinished with
    | late hdisposed => exact absurd hdisposed hs
    | solved _ hr hstatus hvector =>
      cases hr
      obtain ⟨hshape, rfl⟩ := Grid.mk.inj (Except.ok.inj (hread.symm.trans hvector))
      have hlength : o.solution.length = m.columns := (List.cons.inj hshape).1
      rw [Stage.ofResult, if_pos ⟨hstatus, hlength⟩]
      exact ⟨rfl, o.status, rfl, rfl⟩
    | failed _ hr =>
      have hstatus : o.status = .error := hr
      rw [Stage.ofResult, if_neg (by simp [hstatus])]
      exact ⟨rfl, .error, rfl, rfl⟩
    | misfit _ hr hvector hshape =>
      cases hr
      obtain rfl := Except.ok.inj (hread.symm.trans hvector)
      have hlength : o.solution.length ≠ m.columns := fun h => hshape (congrArg (fun n => [n]) h)
      rw [Stage.ofResult, if_neg (by simp [hlength])]
      exact ⟨rfl, .error, rfl, rfl⟩
    | unread _ hr hvector =>
      cases hr
      rw [hread] at hvector
      cases hvector

/-- **Solving in a session that is being built.** -/
theorem solve_of_building (hs : s.stage = .building m) :
    let work := m.freeze.solve engine config (limitArg s.timeLimit) clock (read + 1)
    ∃ elapsed status,
      (s.solve dot engine config clock read).1 =
          { s with elapsed := elapsed, stage := Stage.ofResult dot m.freeze work.result } ∧
        (Stage.ofResult dot m.freeze work.result).status? = some status ∧
        (s.solve dot engine config clock read).2.result = .ok status ∧
        (s.solve dot engine config clock read).2.calls = work.calls := by
  intro work
  obtain ⟨lines, hstart⟩ := startSolve_of_building hs
  have hwaiting : ({ s with stage := .solving m.freeze none } : Session).stage ≠ .disposed := nofun
  obtain ⟨hsession, status, hstatus, hanswer⟩ := finishSolve_ofResult dot hwaiting m.freeze work.result
    ((clock (read + 1 + work.readings)).sub (clock read))
  refine ⟨(clock (read + 1 + work.readings)).sub (clock read), status, ?_, hstatus, ?_, ?_⟩
  · simp only [solve, hstart]
    exact hsession
  · simp only [solve, hstart]
    exact hanswer
  · simp only [solve, hstart]
    rfl

/-- A session solves only once, and only what it has built. -/
theorem building_of_solve {status : SolveStatus}
    (h : (s.solve dot engine config clock read).2.result = .ok status) : ∃ m, s.stage = .building m := by
  unfold solve at h
  cases hstart : s.startSolve with
  | error e =>
    rw [hstart] at h
    cases h
  | ok started =>
    obtain ⟨m, hm, -⟩ := bind_eq_ok_iff.mp hstart
    exact ⟨m, modelToBuild_eq_ok_iff.mp hm⟩

end Session

/-! ## Well-formed models all around -/

/-- A well-formed model with a given infinity. -/
structure Model.Grounded (I : Binary64) (m : Model) : Prop where
  wellFormed : m.WellFormed
  infinity : m.infinity = I

theorem Model.Grounded.freeze {I : Binary64} {m : Model} (hm : m.Grounded I) : m.freeze.Grounded I :=
  ⟨hm.wellFormed.freeze, hm.infinity⟩

theorem Model.Grounded.apply {I : Binary64} {m : Model} (hm : m.Grounded I) {cache cache' : RowCache}
    (hcache : cache.Sound) {e : Edit} {result : Except Error (Model × Option Bool)}
    (h : e.apply m cache = (cache', result)) :
    cache'.Sound ∧ ∀ m' hit, result = .ok (m', hit) → m'.Grounded I := by
  obtain ⟨hsound, hresult⟩ := hm.wellFormed.apply hcache e h
  refine ⟨hsound, fun m' hit hok => ⟨hresult m' hit hok, ?_⟩⟩
  rw [hok] at h
  exact (Edit.sameFrame h).infinity.trans hm.infinity

/-- **All models in the surroundings of a session are well-formed** and have a given infinity, and the row cache is
sound. -/
structure Life.Grounded (I : Binary64) (l : Life) : Prop where
  model : ∀ m, l.session.stage.model? = some m → m.Grounded I
  atWork : ∀ m, l.atWork = some m → m.Grounded I
  cache : l.cache.Sound

namespace Life

variable {I : Binary64} {l : Life}

/-- The session's model is changed. -/
theorem Grounded.withModel (h : l.Grounded I) {m : Model} (hm : m.Grounded I) {cache : RowCache}
    (hcache : cache.Sound) : Grounded I { l.withModel m with cache := cache } where
  model := by
    intro m' hm'
    have hmodel : (l.session.stage.withModel m).model? = some m' := hm'
    cases hstage : l.session.stage <;> rw [hstage] at hmodel <;> cases hmodel <;> exact hm
  atWork := h.atWork
  cache := hcache

/-- **Every event keeps models well-formed**, if row caches that come from others are sound. -/
theorem Grounded.step (h : l.Grounded I) {e : Event} (he : ∀ shared, e = .shareCache shared → shared.Sound) :
    (l.step e).1.Grounded I := by
  cases e with
  | edit e =>
    have hedited := l.session.edited l.cache e
    simp only [Life.step]
    generalize l.session.edit l.cache e = after at hedited ⊢
    cases hedited with
    | notBuilding hbuild => exact h
    | refused hstage happly =>
      have hm := h.model _ (congrArg Stage.model? hstage)
      exact ⟨h.model, h.atWork, (hm.apply h.cache happly).1⟩
    | accepted hstage happly =>
      have hm := h.model _ (congrArg Stage.model? hstage)
      obtain ⟨hsound, hresult⟩ := hm.apply h.cache happly
      refine ⟨fun m' hm' => ?_, h.atWork, hsound⟩
      cases hm'
      exact hresult _ _ rfl
  | setTimeLimit seconds =>
    simp only [Life.step]
    split
    · exact h
    · rename_i s hset
      obtain ⟨m, -, hset⟩ := bind_eq_ok_iff.mp hset
      obtain ⟨limit, -, hset⟩ := bind_eq_ok_iff.mp hset
      cases hset
      exact ⟨h.model, h.atWork, h.cache⟩
  | solve =>
    simp only [Life.step]
    split
    · exact h
    · rename_i s m lines hstart
      obtain ⟨m', hbuild, hstart⟩ := bind_eq_ok_iff.mp hstart
      cases hstart
      have hm := (h.model m' (congrArg Stage.model? (Session.modelToBuild_eq_ok_iff.mp hbuild))).freeze
      refine ⟨fun m hm' => ?_, fun m hm' => ?_, h.cache⟩
      · cases hm'
        exact hm
      · cases hm'
        exact hm
  | reply r elapsed =>
    simp only [Life.step]
    cases hwork : l.atWork with
    | none => exact h
    | some m =>
      have hfinished := Session.finished l.dot l.session m r elapsed
      have hidle : ∀ m', (none : Option Model) = some m' → m'.Grounded I := by
        intro m' hm'
        cases hm'
      refine ⟨fun m' hm' => ?_, hidle, h.cache⟩
      have hmodel : (l.session.finishSolve l.dot m r elapsed).1.stage.model? = some m' := hm'
      generalize (l.session.finishSolve l.dot m r elapsed).1 = s,
        (l.session.finishSolve l.dot m r elapsed).2.2 = answer at hfinished hmodel
      cases hfinished with
      | late => exact h.model m' hmodel
      | solved | failed | misfit | unread =>
        cases hmodel
        exact h.atWork m hwork
  | dispose =>
    refine ⟨fun m hm => ?_, h.atWork, h.cache⟩
    have hmodel : l.session.dispose.1.stage.model? = some m := hm
    unfold Session.dispose at hmodel
    cases hstage : l.session.stage <;> rw [hstage] at hmodel
    all_goals
      first
      | cases hmodel
      | exact h.model m hmodel
  | editModel e =>
    cases hmodel : l.session.model with
    | error refusal =>
      simp only [Life.step, hmodel]
      exact h
    | ok m =>
      have hm := h.model m (Session.model_eq_ok_iff.mp hmodel)
      rw [step_editModel hmodel]
      cases happly : e.apply m l.cache with
      | mk cache result =>
        obtain ⟨hsound, hresult⟩ := hm.apply h.cache happly
        cases result with
        | error refusal => exact ⟨h.model, h.atWork, hsound⟩
        | ok answer => exact h.withModel (hresult _ _ rfl) hsound
  | freezeModel =>
    simp only [Life.step]
    cases hmodel : l.session.model with
    | error refusal => exact h
    | ok m => exact h.withModel (h.model m (Session.model_eq_ok_iff.mp hmodel)).freeze h.cache
  | shareCache cache => exact ⟨h.model, h.atWork, he cache rfl⟩
  | infinity | solution | score => exact h

/-- **Events in a row keep models well-formed.** -/
theorem Grounded.run (h : l.Grounded I) {events : List Event}
    (hshared : ∀ shared, Event.shareCache shared ∈ events → shared.Sound) : (l.run events).Grounded I := by
  induction events generalizing l with
  | nil => exact h
  | cons e rest ih =>
    rw [run_cons]
    refine ih (h.step fun shared he => hshared shared ?_) fun shared hs => hshared shared ?_
    · rw [he]
      exact List.mem_cons_self
    · exact List.mem_cons_of_mem e hs

end Life

/-- **A reachable row cache is sound.** -/
theorem RowCache.Reachable.sound {cache : RowCache} (h : RowCache.Reachable cache) : cache.Sound := by
  obtain ⟨signing, calls, rfl⟩ := h
  exact ((Workspace.wellFormed_empty signing).run calls).cache

/-- **The model of a reachable session** is well-formed and has the infinity of its solver. -/
theorem Session.Reachable.grounded {backend : Backend} {s : Session} (h : s.Reachable backend) {I : Binary64}
    (hI : backend.infinity = .float I) : ∀ m, s.stage.model? = some m → m.Grounded I := by
  obtain ⟨dot, timeLimit, columns, rowsHint, created, handle, cache, events, hcreate, hcache, hshared, rfl⟩ := h
  have hstart : (Life.start dot { created with handle := handle } cache).Grounded I := by
    obtain ⟨J, hJ, hcreate⟩ := bind_eq_ok_iff.mp hcreate
    obtain ⟨m, hm, hcreate⟩ := bind_eq_ok_iff.mp hcreate
    obtain ⟨limit, -, hcreate⟩ := bind_eq_ok_iff.mp hcreate
    rw [hI] at hJ
    cases hJ
    cases hcreate
    refine ⟨fun m' hm' => ?_, nofun, hcache.sound⟩
    cases hm'
    obtain ⟨n, hint, J, -, hJ, hlt, rfl⟩ := Model.create_eq_ok hm
    cases hJ
    exact ⟨Model.wellFormed_blank hlt, rfl⟩
  exact (hstart.run fun shared hs => (hshared shared hs).sound).model

/-! ## Solutions -/

section Solutions

variable {s : Session} (dot : ScalarProduct) (engine : Engine) (config : Config) (clock : Clock) (read : ℕ)

/-- **Every solution that is handed out is well-formed.** A reachable session of a solver whose infinity is that of the
format never refuses to solve what it has built, and whatever the engine does then:
* a solution has an entry for every column, and an entry is finite and within the bounds of its column unless the
  engine wrote it;
* the status is a time-out only if there is a time limit;
* if the engine fails, solving has failed, and the status is an error. -/
theorem solution_is_placed {backend : Backend} (hI : backend.infinity = .float Binary64.infinity)
    (hs : s.Reachable backend) :
    let after := (s.solve dot engine config clock read).1
    let work := (s.solve dot engine config clock read).2
    (∀ m, s.stage = .building m → ∃ status, work.result = .ok status) ∧
      ∀ status, work.result = .ok status →
        (∀ m kept xs score, after.stage = .solved m kept xs score → kept = status ∧ xs.length = m.columns ∧
          ∀ (j : ℕ) (c : Model.ColumnData) (v : Binary64), m.columnData[j]? = some c → xs[j]? = some v →
            (∃ call ∈ work.calls, (engine call).Writes j v) ∨ c.Contains v) ∧
          (status = .timeLimit → s.timeLimit ≠ none) ∧
          ∀ call ∈ work.calls, ∀ cause, engine call = .failed cause →
            status = .error ∧ after.stage.status? = some .error ∧ ∃ m, after.stage = .failed m := by
  intro after work
  constructor
  · intro m hm
    obtain ⟨elapsed, status, -, -, hresult, -⟩ := Session.solve_of_building dot engine config clock read hm
    exact ⟨status, hresult⟩
  intro status hresult
  obtain ⟨m, hm⟩ := Session.building_of_solve dot engine config clock read hresult
  obtain ⟨hwf, hinfinity⟩ := (hs.grounded hI m (congrArg Stage.model? hm)).freeze
  obtain ⟨elapsed, status', hafter, hstatus, hresult', hcalls⟩ :=
    Session.solve_of_building dot engine config clock read hm
  obtain rfl : status' = status := Except.ok.inj (hresult'.symm.trans hresult)
  have hstage : after.stage = Stage.ofResult dot m.freeze
      (m.freeze.solve engine config (limitArg s.timeLimit) clock (read + 1)).result :=
    congrArg Session.stage hafter
  have hcalls : work.calls =
      (m.freeze.solve engine config (limitArg s.timeLimit) clock (read + 1)).calls := hcalls
  refine ⟨?_, ?_, ?_⟩
  · intro m' kept xs score hsolved
    rw [hstage] at hsolved
    rw [hsolved] at hstatus
    obtain ⟨rfl, o, hsolving, rfl, rfl⟩ := Stage.solved_ofResult hsolved
    obtain ⟨hlength, hentries⟩ := Model.solution_of_solve hwf hinfinity hsolving
    rw [hcalls]
    exact ⟨Option.some.inj hstatus, hlength, hentries⟩
  · intro htimeLimit hnone
    rw [htimeLimit, hnone] at hstatus
    obtain ⟨o, hsolving, ho⟩ := Stage.status?_ofResult hstatus nofun
    exact Model.timeLimit_of_solve hwf hinfinity hsolving ho
  · intro call hcall cause hfailed
    rw [hcalls] at hcall
    rw [Model.result_of_failed hwf hinfinity hcall hfailed] at hstage hstatus
    rw [hstage]
    exact ⟨(Option.some.inj hstatus).symm, rfl, m.freeze, rfl⟩

/-- One column from 0 to ∞ and the row `x₀ ≤ 1`, for an engine that answers "optimal" without a value: the solution is
within the bounds. For an engine that fails, solving has failed. -/
theorem solution_is_placed_without_value :
    let one := Binary64.one
    let m := ((Model.blank 1 0 Binary64.infinity).append (.ofArrays [0] [one]) Binary64.negInfinity one).freeze
    let s : Session := ⟨none, "plain", Binary64.infinity, none, Binary64.zero,
      .building ((Model.blank 1 0 Binary64.infinity).append (.ofArrays [0] [one]) Binary64.negInfinity one)⟩
    let silent : Engine := fun _ => .answered (.int 1) .absent [.absent]
    let failing : Engine := fun _ => .failed .frozen
    let solved (engine : Engine) := s.solve Binary64.dot engine .plain (fun _ => one) 0
    (∃ xs score, (solved silent).1.stage = .solved m .optimal xs score ∧ xs.length = 1 ∧
      ∀ (j : ℕ) (c : Model.ColumnData) (v : Binary64), m.columnData[j]? = some c → xs[j]? = some v →
        c.Contains v) ∧
      (solved failing).1.stage.status? = some .error := by
  intro one m s silent failing solved
  let backend : Backend := ⟨"plain", .float Binary64.infinity⟩
  let row : Edit := .sparseRow (.list [.int 1]) (.list [.int 0]) (.float Binary64.negInfinity) (.int 1)
  have hs : s.Reachable backend := by
    refine ⟨Binary64.dot, .absent, .int 1, .int 0, _, none, RowCache.empty .digest, [.edit row], rfl,
      ⟨.digest, [], rfl⟩, by simp, ?_⟩
    decide +kernel
  obtain ⟨hends, hsilent⟩ := solution_is_placed Binary64.dot silent .plain (fun _ => one) 0 rfl hs
  obtain ⟨hends', hfailing⟩ := solution_is_placed Binary64.dot failing .plain (fun _ => one) 0 rfl hs
  constructor
  · have hstage : (solved silent).1.stage = .solved m .optimal [Binary64.zero] Binary64.zero := by
      decide +kernel
    obtain ⟨status, hresult⟩ := hends _ rfl
    obtain ⟨-, hlength, hentries⟩ := (hsilent _ hresult).1 _ _ _ _ hstage
    refine ⟨_, _, hstage, hlength, fun j c v hc hv => (hentries j c v hc hv).resolve_left ?_⟩
    rintro ⟨call, -, status, solutionStatus, values, a, hanswer, ha, hvalue⟩
    cases hanswer
    cases j with
    | zero =>
      cases ha
      cases hvalue
    | succ j => cases ha
  · have hcalls : (solved failing).2.calls ≠ [] := by decide +kernel
    obtain ⟨status, hresult⟩ := hends' _ rfl
    obtain ⟨call, hcall⟩ := List.exists_mem_of_ne_nil _ hcalls
    exact ((hfailing _ hresult).2.2 call hcall .frozen rfl).2.1

/-! ## Start values -/

/-- **What start values can do.** In a reachable model whose infinity is that of the format they are accepted exactly if
no integer column loses its own by rounding, which cannot happen where the bounds of integer columns are whole numbers
or infinite; what is then handed to an engine is within the bounds; and solving ends as it would without start
values, for every engine that does not look at initial values. -/
theorem start_is_advisory_iff {m : Model} (hm : m.Reachable) (hI : m.infinity = Binary64.infinity) :
    ((∃ start, m.startValues config = .ok start) ↔ m.KeepsStart config) ∧
      ((∀ c ∈ m.columnData, c.integer = true → Model.IsWholeBound c.lower ∧ Model.IsWholeBound c.upper) →
        m.KeepsStart config) ∧
      (∀ warm initial, m.startValues config = .ok (warm, initial) →
        List.Forall₂ (fun c v? => ∀ v, v? = some v → c.Contains v) m.columnData initial) ∧
      (m.KeepsStart config → ∀ engine : Engine, engine.IgnoresInitial → ∀ s : Session, s.stage = .building m →
        ∃ status, (s.solve dot engine config clock read).2.result = .ok status ∧
          (({ s with stage := .building m.withoutStart } : Session).solve dot engine config clock read).2.result =
            .ok status) := by
  have hwf := hm.wellFormed
  refine ⟨Model.startValues_isOk_iff hwf hI, ?_, fun warm initial => Model.forall₂_contains_initial hwf hI, ?_⟩
  · intro hwhole _ start hstart p hp
    obtain ⟨hc, hx⟩ := List.of_mem_zip hp
    intro hinteger
    obtain ⟨hlower, hupper⟩ := hwhole p.1 hc hinteger
    exact Model.keepsStart_of_whole (hwf.isRange hI hc) hlower hupper ((hwf.start_finite start hstart).2 _ hx)
      hinteger
  · intro hkeeps engine hengine s hs
    obtain ⟨elapsed, status, -, hstatus, hresult, -⟩ := Session.solve_of_building dot engine config clock read hs
    obtain ⟨elapsed', status', -, hstatus', hresult', -⟩ :=
      Session.solve_of_building (s := { s with stage := .building m.withoutStart }) dot engine config clock read rfl
    have hsame : status' = status := by
      have hshape := Model.solve_without_start hwf.freeze hI hkeeps hengine (limitArg s.timeLimit) clock (read + 1)
      have hcongr : (Stage.ofResult dot m.withoutStart.freeze _).status? = (Stage.ofResult dot m.freeze _).status? :=
        Stage.status?_ofResult_congr rfl hshape
      exact Option.some.inj (hstatus'.symm.trans (hcongr.trans hstatus))
    exact ⟨status, hresult, hsame ▸ hresult'⟩

/-- An integer column from 0 to 3 with the start value 1.6: it is accepted, and solving ends as it would without it. -/
theorem start_is_advisory_of_whole_bounds :
    let three := Binary64.ofInt 3
    let start := Binary64.ofDecimal false 16 (-1)
    let row : BoundedRow := ⟨.ofArrays [0] [Binary64.one], Binary64.negInfinity, Binary64.one⟩
    let m : Model := { Model.blank 1 0 Binary64.infinity with
      upper := [three], integer := [true], start := some [start], rows := [row] }
    let optimal : Engine := fun _ => .answered (.int 1) .absent []
    let s : Session := ⟨none, "plain", Binary64.infinity, none, Binary64.zero, .building m⟩
    (∃ start, m.startValues .plain = .ok start) ∧
      ∃ status, (s.solve Binary64.dot optimal .plain (fun _ => Binary64.one) 0).2.result = .ok status ∧
        (({ s with stage := .building m.withoutStart } : Session).solve Binary64.dot optimal .plain
          (fun _ => Binary64.one) 0).2.result = .ok status := by
  intro three start row m optimal s
  have hm : m.Reachable := by
    refine ⟨.digest, [.create (.int 1) (.int 0) (.float Binary64.infinity),
      .edit 0 (.columnBounds (.list [.int 0]) (.list [.int 3])), .edit 0 (.columnInteger (.list [.flag true])),
      .edit 0 (.columnStart (.list [.float start])),
      .edit 0 (.sparseRow (.list [.int 1]) (.list [.int 0]) (.float Binary64.negInfinity) (.int 1))], ?_⟩
    decide +kernel
  obtain ⟨haccepted, hwhole, -, hends⟩ :=
    start_is_advisory_iff (m := m) Binary64.dot .plain (fun _ => Binary64.one) 0 hm rfl
  have hkeeps : m.KeepsStart .plain := by
    refine hwhole fun c hc _ => ?_
    obtain rfl : c = ⟨Binary64.zero, three, Binary64.zero, true⟩ := List.mem_singleton.mp hc
    have hthree : three.units = 3 * unitsPerOne := by decide +kernel
    exact ⟨fun _ => ⟨0, by simp⟩, fun _ => ⟨3, Binary64.toRat_of_units hthree⟩⟩
  exact ⟨haccepted.mpr hkeeps, hends hkeeps optimal (fun _ _ _ => rfl) s rfl⟩

/-- An integer column from 0 to 0.7 with the start value 1: moved into the bounds it is 0.7, rounded it is 1, which is
refused. Solving ends in an error for an engine that would have answered "optimal". -/
theorem start_rounded_out_of_bounds :
    let high := Binary64.ofDecimal false 7 (-1)
    let row : BoundedRow := ⟨.ofArrays [0] [Binary64.one], Binary64.negInfinity, Binary64.one⟩
    let m : Model := { Model.blank 1 0 Binary64.infinity with
      upper := [high], integer := [true], start := some [Binary64.one], rows := [row] }
    let optimal : Engine := fun _ => .answered (.int 1) .absent []
    let s : Session := ⟨none, "plain", Binary64.infinity, none, Binary64.zero, .building m⟩
    let ended (m : Model) :=
      let s : Session := { s with stage := .building m }
      (s.solve Binary64.dot optimal .plain (fun _ => Binary64.one) 0).1.stage.status?
    m.Reachable ∧ optimal.IgnoresInitial ∧ (¬ ∃ start, m.startValues .plain = .ok start) ∧
      ended m = some .error ∧ ended m.withoutStart = some .optimal := by
  intro high row m optimal s ended
  refine ⟨⟨.digest, [.create (.int 1) (.int 0) (.float Binary64.infinity),
      .edit 0 (.columnBounds (.list [.int 0]) (.list [.float high])), .edit 0 (.columnInteger (.list [.flag true])),
      .edit 0 (.columnStart (.list [.int 1])),
      .edit 0 (.sparseRow (.list [.int 1]) (.list [.int 0]) (.float Binary64.negInfinity) (.int 1))], ?_⟩,
    fun _ _ _ => rfl, ?_, ?_, ?_⟩
  · decide +kernel
  · rintro ⟨start, h⟩
    have hrefused : (m.startValues .plain).toOption = none := by decide +kernel
    rw [h] at hrefused
    cases hrefused
  · decide +kernel
  · decide +kernel

end Solutions

end Milp
