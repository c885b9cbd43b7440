import Milp.Proofs.CommandLine.Disposal
import Milp.Proofs.Instance.Parameters
import Milp.Proofs.Session.Loading

/-!
# What a run reports

Options are refused before the engine is called, for reasons that can be read off them, or they lead to a loaded
model. That is solved, whatever the engine does, and the report has the status, the solution and the counts of the
session and its cache.

* `Options.IsRefused` — the reasons, and `Report.IsRefusal` — the report: `run_of_refused`.
* `Job.Loaded` — a run whose instance has been loaded: `exists_loaded`.
* `Report.Tells` — a report that says what the session has come to: `Job.Loaded.conclude`.
-/

namespace Milp

/-- A number that is not above zero. -/
theorem Binary64.not_zero_lt_iff {x : Binary64} : ¬ zero.lt x = true ↔ (x.isNaN || x.le zero) = true := by
  cases hx : x.isNaN with
  | false => exact not_lt_iff rfl hx
  | true =>
    have hplace := isNaN_iff.mp hx
    refine ⟨fun _ => rfl, fun _ hlt => ?_⟩
    obtain ⟨a, b, -, hb, -⟩ := lt_iff.mp hlt
    cases hb.symm.trans hplace

namespace CommandLine

/-! ## Options -/

/-- **Options with a value for everything that an instance and its loading need.** -/
structure Options.HasValues (o : Options) (c n k : ℤ) (d : Binary64) (mode : Mode) : Prop where
  columns : o.columns = .given c
  rows : o.rows = .given n
  patterns : o.patterns = .given k
  density : o.density = .given d
  mode : o.mode = .given mode

/-- A time limit that cannot be used: it is not a number above zero. -/
def Options.RefusesLimit (o : Options) : Prop :=
  ∃ limit, o.timeLimit = some limit ∧ ∀ x, limit = .given x → ¬ Binary64.zero.lt x = true

/-- **Options that cannot be used.** -/
inductive Options.IsRefused (o : Options) : Prop where
  | columns {c : ℤ} (hc : o.columns = .given c) (h : c ≤ 0)
  | density {d : Binary64} (hd : o.density = .given d) (h : ¬ (Binary64.zero.lt d = true ∧ d.le Binary64.one = true))
  | seed {s : ℤ} (hs : o.seed = .given s) (h : s < 0)
  | share (h : o.integerShare = .blank)
  | limit (h : o.RefusesLimit)

/-- **The report of a refusal**: nothing has been solved. -/
structure Report.IsRefusal (r : Report) : Prop where
  exit : r.exit = refusalCode
  payload : r.payload = none
  calls : r.calls = []

variable {o : Options} {c n k : ℤ} {d : Binary64} {mode : Mode} {p : Instance} {records : List Log.Record} {j : Job}
  {e : Error} {s s' : Session} {cache : RowCache}

theorem Options.modeArg_of_given (h : o.mode = .given mode) : o.modeArg = .text mode.name := by
  rw [Options.modeArg, h]
  rfl

/-! ## Building -/

namespace Job

/-- The session for an instance takes every time limit that is read. -/
theorem setTimeLimit_firstSession (p : Instance) (a : Arg) : (firstSession p).setTimeLimit a =
    (normalizeTimeLimit a).map fun limit => { firstSession p with timeLimit := limit } := by
  show (normalizeTimeLimit a >>= fun limit => _) = _
  cases normalizeTimeLimit a <;> rfl

theorem setTimeLimit_of_refused (h : o.RefusesLimit) (p : Instance) : ∃ e,
    (firstSession p).setTimeLimit (Options.numberArg o.timeLimit) = .error e ∧ e.isInvalidArgument = true := by
  obtain ⟨limit, hlimit, hvalue⟩ := h
  rw [setTimeLimit_firstSession, hlimit]
  cases limit with
  | blank => exact ⟨.timeLimitNotNumber (.list []), rfl, rfl⟩
  | given x =>
    have hrefused : normalizeTimeLimit (.float x) = .error (.timeLimitNotPositive x) :=
      if_pos (Binary64.not_zero_lt_iff.mp (hvalue x rfl))
    refine ⟨.timeLimitNotPositive x, ?_, rfl⟩
    show (normalizeTimeLimit (.float x)).map _ = _
    rw [hrefused]
    rfl

theorem setTimeLimit_of_accepted (h : ¬ o.RefusesLimit) (p : Instance) : ∃ limit,
    (firstSession p).setTimeLimit (Options.numberArg o.timeLimit) =
      .ok { firstSession p with timeLimit := limit } := by
  obtain ⟨limit, haccepted⟩ : ∃ limit, normalizeTimeLimit (Options.numberArg o.timeLimit) = .ok limit := by
    cases hlimit : o.timeLimit with
    | none => exact ⟨none, rfl⟩
    | some limit =>
      cases limit with
      | blank =>
        refine absurd ⟨.blank, hlimit, fun x hx => ?_⟩ h
        cases hx
      | given x =>
        have hpositive : ¬ (x.isNaN || x.le Binary64.zero) = true := by
          rw [← Binary64.not_zero_lt_iff]
          intro hx
          refine h ⟨.given x, hlimit, fun y hy => ?_⟩
          cases hy
          exact hx
        show ∃ limit, (if (x.isNaN || x.le Binary64.zero) = true then _ else _) = Except.ok limit
        rw [if_neg hpositive]
        split
        · exact ⟨_, rfl⟩
        · exact ⟨_, rfl⟩
  refine ⟨limit, ?_⟩
  rw [setTimeLimit_firstSession, haccepted]
  rfl

/-- Building that stops for an argument ends in a refusal. -/
theorem Single.stopBuilding_refused (h : j.Single) (he : e.isInvalidArgument = true) (α : Type) :
    ∃ r, j.stopBuilding (α := α) e = .error (.reported r) ∧ r.IsRefusal := by
  rw [Job.stopBuilding, h.closing, if_pos he]
  exact ⟨_, rfl, rfl, rfl, rfl⟩

/-- **A run with its instance loaded**, and the rows counted that went through the cache. -/
structure Loaded (o : Options) (p : Instance) (mode : Mode) (j : Job) : Prop where
  single : j.Single
  options : j.options = o
  problem : j.problem = p
  building : ∃ m, j.session.stage = .building m ∧ m.columns = p.columns
  balance : mode = .cached → j.hits + j.registry.cache.size = p.rows.length
  idle : mode ≠ .cached → j.hits = 0 ∧ j.registry.cache.size = 0

/-- A run whose session has been through the loading. -/
def withLoaded (j : Job) (s : Session) (cache : RowCache) (hits : ℕ) : Job :=
  { j with session := s, registry := { j.registry with cache := cache }, hits := hits }

theorem Single.withLoaded (h : j.Single) (s : Session) (cache : RowCache) (hits : ℕ) :
    (j.withLoaded s cache hits).Single :=
  ⟨h.handle, h.sessions, h.inUse⟩

theorem build_of_limit_refused (hlimit : j.session.setTimeLimit (Options.numberArg j.options.timeLimit) = .error e) :
    j.build = j.stopBuilding e := by
  unfold Job.build
  rw [hlimit]

theorem build_of_load_refused (hlimit : j.session.setTimeLimit (Options.numberArg j.options.timeLimit) = .ok s)
    (hload : s.load j.registry.cache j.problem.given j.options.modeArg = (s', cache, .error e)) :
    j.build = (j.withLoaded s' cache j.hits).stopBuilding e := by
  unfold Job.build
  rw [hlimit]
  dsimp only
  rw [hload]
  rfl

theorem build_of_load {hits : ℕ} (hlimit : j.session.setTimeLimit (Options.numberArg j.options.timeLimit) = .ok s)
    (hload : s.load j.registry.cache j.problem.given j.options.modeArg = (s', cache, .ok hits)) :
    j.build = .ok (j.withLoaded s' cache hits) := by
  unfold Job.build
  rw [hlimit]
  dsimp only
  rw [hload]
  rfl

/-- **A time limit that cannot be used** stops the building. -/
theorem build_of_refusesLimit (h : o.RefusesLimit) (p : Instance) (records : List Log.Record) :
    ∃ r, (start o p records).build = .error (.reported r) ∧ r.IsRefusal := by
  obtain ⟨e, hlimit, hinvalid⟩ := setTimeLimit_of_refused h p
  rw [build_of_limit_refused (j := start o p records) hlimit]
  exact (single_start o p records).stopBuilding_refused hinvalid Job

/-- The model of the first session takes edits. -/
theorem open_blank (hp : p.columns < entryLimit) :
    (Model.blank p.columns p.rows.length Binary64.infinity).Open p.columns where
  grounded := ⟨Model.wellFormed_blank hp, rfl⟩
  columns := rfl
  unfrozen := rfl

/-- **An instance without upper bounds** stops the building, too. -/
theorem build_of_lacksUpper (hp : p.LacksUpper) (hcolumns : p.columns < entryLimit) (hmode : o.mode = .given mode)
    (records : List Log.Record) : ∃ r, (start o p records).build = .error (.reported r) ∧ r.IsRefusal := by
  -- the time limit is set before anything is loaded
  by_cases hrefused : o.RefusesLimit
  · exact build_of_refusesLimit hrefused p records
  obtain ⟨limit, hlimit⟩ := setTimeLimit_of_accepted hrefused p
  obtain ⟨s', cache, e, hload, hinvalid⟩ :=
    Session.load_of_lacksUpper (s := { firstSession p with timeLimit := limit }) hp rfl rfl (open_blank hcolumns)
      (RowCache.empty .digest) mode
  rw [← Options.modeArg_of_given hmode] at hload
  rw [build_of_load_refused (j := start o p records) hlimit hload]
  exact ((single_start o p records).withLoaded s' cache 0).stopBuilding_refused hinvalid Job

/-- **An instance in order is loaded.** -/
theorem exists_loaded (hrefused : ¬ o.RefusesLimit) (hp : p.WellFormed) (hcolumns : p.columns < entryLimit)
    (hmode : o.mode = .given mode) (hsize : mode = .batch → Model.entryCount p.rows ≤ Int64.maxValue.toInt)
    (records : List Log.Record) : ∃ j, (start o p records).build = .ok j ∧ j.Loaded o p mode := by
  obtain ⟨limit, hlimit⟩ := setTimeLimit_of_accepted hrefused p
  obtain ⟨m, cache, hits, hload, hm, -, hbooked⟩ :=
    Session.load_given (s := { firstSession p with timeLimit := limit }) hp rfl rfl (open_blank hcolumns)
      (RowCache.sound_empty .digest) hsize
  rw [← Options.modeArg_of_given hmode] at hload
  have hempty : (RowCache.empty .digest).size = 0 := rfl
  refine ⟨_, build_of_load (j := start o p records) hlimit hload, ?_, rfl, rfl, ⟨m, rfl, hm.columns⟩,
    fun hcached => ?_, fun hother => ?_⟩
  · exact (single_start o p records).withLoaded _ cache hits
  · have hbalance := hbooked.balance (decide_eq_true hcached)
    rwa [hempty, Nat.zero_add] at hbalance
  · obtain ⟨rfl, rfl⟩ := hbooked.idle (decide_eq_false hother)
    exact ⟨rfl, hempty⟩

end Job

/-! ## Refusals -/

/-- The parameters of options that have values. -/
theorem Options.HasValues.parameters (h : o.HasValues c n k d mode) : o.parameters =
    ⟨.int c, .int n, .int k, .float d, o.integerShare.arg .float, o.seed.arg .int⟩ := by
  rw [Options.parameters, h.columns, h.rows, h.patterns, h.density]
  rfl

theorem Job.prepare_of_badValue (he : Instance.generate o.parameters = .error e) (hbad : e.isBadValue = true) :
    ∃ r, prepare o = .error (.reported r) ∧ r.IsRefusal := by
  rw [prepare, he]
  dsimp only
  rw [if_pos hbad]
  exact ⟨_, rfl, rfl, rfl, rfl⟩

variable (dot : ScalarProduct) (engine : Engine) (clock : Clock)

theorem carryOut_of_prepare {stop : Stop} (h : Job.prepare o = .error stop) :
    carryOut o dot engine clock = .error stop := by
  unfold carryOut
  rw [h]
  rfl

theorem carryOut_of_build {stop : Stop} (hprepare : Job.prepare o = .ok j) (h : j.build = .error stop) :
    carryOut o dot engine clock = .error stop := by
  unfold carryOut
  rw [hprepare]
  show j.build >>= _ = _
  rw [h]
  rfl

/-- A run that stops with a refusal reports it. -/
theorem run_of_reported {r : Report} (h : carryOut o dot engine clock = .error (.reported r)) (hr : r.IsRefusal) :
    ∃ r, run o dot engine clock = .ok r ∧ r.IsRefusal := by
  rw [run, h]
  exact ⟨r.shown o, rfl, hr.exit, hr.payload, hr.calls⟩

theorem run_of_build (hp : Instance.generate o.parameters = .ok p)
    (h : ∀ records, ∃ r, (Job.start o p records).build = .error (.reported r) ∧ r.IsRefusal) :
    ∃ r, run o dot engine clock = .ok r ∧ r.IsRefusal := by
  obtain ⟨records, hprepare⟩ := Job.prepare_of_generated hp
  obtain ⟨r, hbuild, hr⟩ := h records
  exact run_of_reported dot engine clock (carryOut_of_build dot engine clock hprepare hbuild) hr

/-- A seed as an argument. -/
theorem Options.seed_arg (o : Options) : o.seed.arg .int = .list [] ∨ ∃ s, o.seed.arg .int = .int s := by
  cases o.seed with
  | blank => exact .inl rfl
  | given s => exact .inr ⟨s, rfl⟩

/-- **The reasons for a refusal**, sorted by where it happens. -/
theorem Options.HasValues.isRefused_iff (h : o.HasValues c n k d mode) : o.IsRefused ↔
    ¬ Instance.Accepts c d (o.seed.arg .int) ∨ o.integerShare = .blank ∨ o.RefusesLimit := by
  constructor
  · rintro (⟨hc, hle⟩ | ⟨hd, hrange⟩ | ⟨hs, hnegative⟩ | hshare | hlimit)
    · cases h.columns.symm.trans hc
      exact .inl fun haccepts => hle.not_gt haccepts.columns_pos
    · cases h.density.symm.trans hd
      exact .inl fun haccepts => hrange ⟨haccepts.density_pos, haccepts.density_le⟩
    · refine .inl fun haccepts => hnegative.not_ge (haccepts.seed _ ?_)
      rw [hs]
      rfl
    · exact .inr (.inl hshare)
    · exact .inr (.inr hlimit)
  · rintro (hparameters | hshare | hlimit)
    · by_contra hnone
      have hrange : Binary64.zero.lt d = true ∧ d.le Binary64.one = true := by
        by_contra hrange
        exact hnone (.density h.density hrange)
      refine hparameters ⟨not_le.mp fun hle => hnone (.columns h.columns hle), hrange.1, hrange.2, fun s hs => ?_⟩
      cases hseed : o.seed with
      | blank =>
        rw [hseed] at hs
        cases hs
      | given s' =>
        rw [hseed] at hs
        cases hs
        exact not_lt.mp fun hlt => hnone (.seed hseed hlt)
    · exact .share hshare
    · exact .limit hlimit

/-- **Options that cannot be used are refused**, whatever scalar product, engine and clock are. -/
theorem run_of_refused (h : o.HasValues c n k d mode) (hsmall : c ≤ 2 ^ 53) (hrefused : o.IsRefused) :
    ∃ r, run o dot engine clock = .ok r ∧ r.IsRefusal := by
  have hbadValue : ∀ {e : Error}, Instance.generate o.parameters = .error e → e.isBadValue = true →
      ∃ r, run o dot engine clock = .ok r ∧ r.IsRefusal := by
    intro e he hbad
    obtain ⟨r, hprepare, hr⟩ := Job.prepare_of_badValue he hbad
    exact run_of_reported dot engine clock (carryOut_of_prepare dot engine clock hprepare) hr
  have hparameters := h.parameters
  -- parameters are refused first; what they let through is refused while the model is built
  by_cases haccepts : Instance.Accepts c d (o.seed.arg .int)
  · cases hshare : o.integerShare with
    | blank =>
      rw [hshare] at hparameters
      rcases Instance.generate_of_blank n k haccepts hsmall o.seed_arg with ⟨e, he, hbad⟩ | ⟨p, hp, hlacks⟩
      · exact hbadValue (hparameters ▸ he) hbad
      · have hcolumns := Instance.columns_lt_of_generate hp
        exact run_of_build dot engine clock (hparameters ▸ hp) (Job.build_of_lacksUpper hlacks hcolumns h.mode)
    | given w =>
      rw [hshare] at hparameters
      obtain ⟨p, hp, -⟩ := Instance.generate_of_share n k w haccepts hsmall o.seed_arg
      rcases h.isRefused_iff.mp hrefused with hrefuses | hblank | hlimit
      · exact absurd haccepts hrefuses
      · rw [hshare] at hblank
        cases hblank
      · exact run_of_build dot engine clock (hparameters ▸ hp) (Job.build_of_refusesLimit hlimit p)
  · obtain ⟨e, he, hbad⟩ := Instance.generate_of_refused n k (o.integerShare.arg .float) o.seed_arg haccepts
    exact hbadValue (hparameters ▸ he) hbad

/-! ## Reports of solved runs -/

/-- The session of a run after solving, and what has happened on the way. -/
def Job.solved (j : Job) (dot : ScalarProduct) (engine : Engine) (clock : Clock) :
    Session × Traced (Except Error SolveStatus) :=
  j.session.solve dot engine j.options.config clock 2

/-- **A report that says what the session has come to**: its status, its solution and value if there is one, the
numbers that the instance, the loading and the cache have, and the calls of the engine. The session has been disposed
of. -/
structure Report.Tells (r : Report) (j : Job) (dot : ScalarProduct) (engine : Engine) (clock : Clock)
    (q : Payload) : Prop where
  payload : r.payload = some q
  calls : r.calls = (j.solved dot engine clock).2.calls
  result : (j.solved dot engine clock).2.result = .ok q.status
  status : (j.solved dot engine clock).1.stage.status? = some q.status
  exit : r.exit = exitCode q.status
  mode : q.mode = j.options.mode.getD .cached
  answer : q.answer.isSome = true ↔ q.status ≠ .error
  solution : ∀ score xs, q.answer = some (score, xs) → (j.solved dot engine clock).1.solution = .ok xs ∧
    (j.solved dot engine clock).1.score = .ok score ∧ xs.length = j.problem.columns
  line : r.line = q.summary j.problem.columns j.problem.rows.length j.hits j.registry.cache.size
  disposed : r.registry.session? 1 = some (j.solved dot engine clock).1.dispose.1

namespace Job

/-- A run after solving. -/
def ended (j : Job) (dot : ScalarProduct) (engine : Engine) (clock : Clock) : Job :=
  { j with
    session := (j.solved dot engine clock).1
    records := j.records ++ (j.solved dot engine clock).2.records }

/-- **A loaded session is solved**: with a solution for all columns, or with an error. -/
theorem Loaded.exists_status (h : j.Loaded o p mode) : ∃ status, (j.solved dot engine clock).2.result = .ok status ∧
    (j.solved dot engine clock).1.stage.status? = some status ∧
      ((status ≠ .error ∧ ∃ m xs score,
          (j.solved dot engine clock).1.stage = .solved m status xs score ∧ xs.length = p.columns) ∨
        (status = .error ∧ ∃ m, (j.solved dot engine clock).1.stage = .failed m)) := by
  obtain ⟨m, hm, hcolumns⟩ := h.building
  obtain ⟨elapsed, status, hafter, hstatus, hresult, -⟩ :=
    Session.solve_of_building dot engine j.options.config clock 2 hm
  have hstage : (j.solved dot engine clock).1.stage = Stage.ofResult dot m.freeze
      (m.freeze.solve engine j.options.config (limitArg j.session.timeLimit) clock (2 + 1)).result :=
    congrArg Session.stage hafter
  rw [← hstage] at hstatus
  refine ⟨status, hresult, hstatus, ?_⟩
  have hcases := Stage.ofResult_cases dot m.freeze
    (m.freeze.solve engine j.options.config (limitArg j.session.timeLimit) clock (2 + 1)).result
  rw [← hstage] at hcases
  rcases hcases with ⟨status', xs, score, hsolved, hne, hlength⟩ | hfailed
  · rw [hsolved] at hstatus
    cases hstatus
    exact .inl ⟨hne, m.freeze, xs, score, hsolved, hlength.trans hcolumns⟩
  · rw [hfailed] at hstatus
    cases hstatus
    exact .inr ⟨rfl, m.freeze, hfailed⟩

theorem answer_of_result {xs : List Binary64} {score : Binary64} (h : j.session.result "get_score" = .ok (xs, score))
    (status : SolveStatus) (buildSeconds : Binary64) : (j.payload status buildSeconds).answer = some (score, xs) := by
  unfold Job.payload
  rw [h]

theorem answer_of_refused (h : j.session.result "get_score" = .error e) (status : SolveStatus)
    (buildSeconds : Binary64) : (j.payload status buildSeconds).answer = none := by
  unfold Job.payload
  rw [h]

/-- **The data of a run** has the solution and the value that the session gives out, or neither. -/
theorem Loaded.answer (h : j.Loaded o p mode) (buildSeconds : Binary64) {status : SolveStatus}
    (hresult : (j.solved dot engine clock).2.result = .ok status) :
    let answer := ((j.ended dot engine clock).payload status buildSeconds).answer
    (answer.isSome = true ↔ status ≠ .error) ∧ ∀ score xs, answer = some (score, xs) →
      (j.solved dot engine clock).1.solution = .ok xs ∧ (j.solved dot engine clock).1.score = .ok score ∧
        xs.length = j.problem.columns := by
  intro answer
  obtain ⟨status', hresult', -, hcases⟩ := h.exists_status dot engine clock
  cases hresult.symm.trans hresult'
  rcases hcases with ⟨hne, m, xs, score, hstage, hlength⟩ | ⟨rfl, m, hstage⟩
  · have hread : ∀ operation, (j.solved dot engine clock).1.result operation = .ok (xs, score) := by
      intro operation
      unfold Session.result
      rw [hstage]
    have hanswer : answer = some (score, xs) := answer_of_result (hread "get_score") status buildSeconds
    have hsolution : (j.solved dot engine clock).1.solution = .ok xs := by
      rw [Session.solution, hread]
      rfl
    have hscore : (j.solved dot engine clock).1.score = .ok score := by
      rw [Session.score, hread]
      rfl
    rw [hanswer]
    refine ⟨⟨fun _ => hne, fun _ => rfl⟩, fun score' xs' heq => ?_⟩
    cases heq
    exact ⟨hsolution, hscore, hlength.trans (congrArg Instance.columns h.problem).symm⟩
  · have hread : (j.ended dot engine clock).session.result "get_score" = .error (.notSolved "get_score" "failed") := by
      show (j.solved dot engine clock).1.result "get_score" = _
      unfold Session.result
      rw [hstage]
      rfl
    have hanswer : answer = none := answer_of_refused hread .error buildSeconds
    rw [hanswer]
    refine ⟨⟨fun hsome => ?_, fun hne => absurd rfl hne⟩, fun score xs hsome => ?_⟩
    · cases hsome
    · cases hsome

/-- **A loaded run is reported**, whatever the engine does. -/
theorem Loaded.conclude (h : j.Loaded o p mode) (buildSeconds : Binary64) : ∃ r q,
    j.conclude (j.solved dot engine clock).1 (j.solved dot engine clock).2.result (j.solved dot engine clock).2.records
        buildSeconds (j.solved dot engine clock).2.calls = .ok r ∧ r.Tells j dot engine clock q := by
  obtain ⟨status, hresult, hstatus, -⟩ := h.exists_status dot engine clock
  obtain ⟨hanswer, hsolution⟩ := h.answer dot engine clock buildSeconds hresult
  have hsingle : (j.ended dot engine clock).Single := ⟨h.single.handle, h.single.sessions, h.single.inUse⟩
  have hconclude : j.conclude (j.solved dot engine clock).1 (j.solved dot engine clock).2.result
      (j.solved dot engine clock).2.records buildSeconds (j.solved dot engine clock).2.calls =
        .ok ((j.ended dot engine clock).report status buildSeconds (j.solved dot engine clock).2.calls
          (j.ended dot engine clock).final (j.ended dot engine clock).session.dispose.2) := by
    rw [hresult]
    exact hsingle.closing _
  exact ⟨_, (j.ended dot engine clock).payload status buildSeconds, hconclude,
    ⟨rfl, rfl, hresult, hstatus, rfl, rfl, hanswer, hsolution, rfl, rfl⟩⟩

end Job

/-- Records that are not shown leave the rest of a report as it is. -/
theorem Report.Tells.shown {r : Report} {q : Payload} (h : r.Tells j dot engine clock q) (o : Options) :
    (r.shown o).Tells j dot engine clock q :=
  ⟨h.payload, h.calls, h.result, h.status, h.exit, h.mode, h.answer, h.solution, h.line, h.disposed⟩

/-- **All other options lead to a loaded run** with the sizes that were asked for, and to a report of its session. -/
theorem run_of_accepted (h : o.HasValues c n k d mode) (hsmall : c ≤ 2 ^ 53)
    (hsize : mode = .batch → n.toNat * Shape.patternSizeOf (.float d) c.toNat ≤ Int64.maxValue.toInt)
    (haccepted : ¬ o.IsRefused) : ∃ p j r q, p.columns = c.toNat ∧ p.rows.length = n.toNat ∧
      (Job.prepare o >>= Job.build) = .ok j ∧ j.Loaded o p mode ∧ run o dot engine clock = .ok r ∧
        r.Tells j dot engine clock q := by
  rw [h.isRefused_iff] at haccepted
  obtain ⟨haccepts, haccepted⟩ := not_or.mp haccepted
  obtain ⟨hshare, hlimit⟩ := not_or.mp haccepted
  cases hgiven : o.integerShare with
  | blank => exact absurd hgiven hshare
  | given w =>
    have hparameters := h.parameters
    rw [hgiven] at hparameters
    obtain ⟨p, hp, hwf, hcolumns, hrows, hsizes⟩ :=
      Instance.generate_of_share n k w (not_not.mp haccepts) hsmall o.seed_arg
    have hp : Instance.generate o.parameters = .ok p := hparameters ▸ hp
    have hentries : mode = .batch → Model.entryCount p.rows ≤ Int64.maxValue.toInt := by
      intro hbatch
      rw [Model.entryCount_of_size hsizes, hrows]
      exact_mod_cast hsize hbatch
    obtain ⟨records, hprepare⟩ := Job.prepare_of_generated hp
    obtain ⟨j, hbuild, hloaded⟩ := Job.exists_loaded hlimit hwf (Instance.columns_lt_of_generate hp) h.mode hentries
      records
    obtain ⟨r, q, hconclude, htells⟩ := hloaded.conclude dot engine clock ((clock 1).sub (clock 0))
    have hprepared : (Job.prepare o >>= Job.build) = .ok j := by
      rw [hprepare]
      exact hbuild
    have hcarried : carryOut o dot engine clock = .ok r := by
      unfold carryOut
      rw [hprepare]
      show (Job.start o p records).build >>= _ = _
      rw [hbuild, ← hconclude, Job.solved, hloaded.options]
      rfl
    refine ⟨p, j, r.shown o, q, hcolumns, hrows, hprepared, hloaded, ?_, htells.shown dot engine clock o⟩
    rw [run, hcarried]
    rfl

/-! ## The whole story -/

theorem exitCode_ne_refusalCode (status : SolveStatus) : exitCode status ≠ refusalCode := by
  cases status <;> decide

/-- **The command line tells one story.** In every case nothing is left in use, and if a session has been made, its
handle has been disposed of. Options with values for what an instance needs, of sizes that arrays and positions can
have, always lead to a report:
* the exit code is 2 exactly for the options that cannot be used, and then the engine has not been called;
* otherwise a model is built and solved, the exit code follows the status, and status, solution, value and counts are
  those of the session and the cache. In the cached mode hits and entries add up to the rows; in the others there are
  none. -/
theorem run_tells_one_story (o : Options) (dot : ScalarProduct) (engine : Engine) (clock : Clock) :
    ((registryLeft (carryOut o dot engine clock)).Closed ∧
      ∀ p, Instance.generate o.parameters = .ok p →
        (registryLeft (carryOut o dot engine clock)).get (.int 1) = .error (.handleDisposed (.int 1))) ∧
    ∀ c n k d mode, o.HasValues c n k d mode → c ≤ 2 ^ 53 →
      (mode = .batch → n.toNat * Shape.patternSizeOf (.float d) c.toNat ≤ Int64.maxValue.toInt) →
      ∃ r, run o dot engine clock = .ok r ∧ (r.exit = refusalCode ↔ o.IsRefused) ∧
        (o.IsRefused → r.calls = [] ∧ r.payload = none) ∧
        (¬ o.IsRefused → (r.exit = 0 ∨ r.exit = 3 ∨ r.exit = 4) ∧
          ∃ j q, (Job.prepare o >>= Job.build) = .ok j ∧ r.Tells j dot engine clock q ∧ q.mode = mode ∧
            j.problem.columns = c.toNat ∧ j.problem.rows.length = n.toNat ∧
            (mode = .cached → j.hits + j.registry.cache.size = n.toNat) ∧
            (mode ≠ .cached → j.hits = 0 ∧ j.registry.cache.size = 0)) := by
  refine ⟨⟨?_, fun p hp => ?_⟩, fun c n k d mode h hsmall hsize => ?_⟩
  · cases hgenerate : Instance.generate o.parameters with
    | error e =>
      rw [registryLeft_of_refused dot engine clock hgenerate]
      exact Registry.closed_empty
    | ok p =>
      obtain ⟨j, hj⟩ := registryLeft_of_generated dot engine clock hgenerate
      rw [hj]
      exact j.closed_final
  · obtain ⟨j, hj⟩ := registryLeft_of_generated dot engine clock hp
    rw [hj]
    rfl
  by_cases hrefused : o.IsRefused
  · obtain ⟨r, hrun, hr⟩ := run_of_refused dot engine clock h hsmall hrefused
    exact ⟨r, hrun, ⟨fun _ => hrefused, fun _ => hr.exit⟩, fun _ => ⟨hr.calls, hr.payload⟩,
      fun haccepted => absurd hrefused haccepted⟩
  · obtain ⟨p, j, r, q, hcolumns, hrows, hbuilt, hloaded, hrun, htells⟩ :=
      run_of_accepted dot engine clock h hsmall hsize hrefused
    obtain rfl := hloaded.problem
    have hmode : q.mode = mode := by
      rw [htells.mode, hloaded.options, h.mode]
      rfl
    have hexit : r.exit = 0 ∨ r.exit = 3 ∨ r.exit = 4 := by
      rw [htells.exit]
      cases q.status <;> decide
    refine ⟨r, hrun, ⟨fun hcode => ?_, fun h => absurd h hrefused⟩, fun h => absurd h hrefused, fun _ =>
      ⟨hexit, j, q, hbuilt, htells, hmode, hcolumns, hrows, fun hcached => ?_, hloaded.idle⟩⟩
    · rw [htells.exit] at hcode
      exact absurd hcode (exitCode_ne_refusalCode q.status)
    · rw [hloaded.balance hcached, hrows]

/-- Three columns and four rows are solved and reported: hits and entries add up to the rows. With a time limit of
zero they are refused. -/
theorem run_tells_one_story_of_four_rows :
    let o : Options := { Options.plain with columns := .given 3, rows := .given 4 }
    let limited : Options := { o with timeLimit := some (.given Binary64.zero) }
    let optimal : Engine := fun _ => .answered (.int 1) .absent []
    let clock : Clock := fun _ => Binary64.zero
    (∃ r j q, run o Binary64.dot optimal clock = .ok r ∧ r.exit ≠ refusalCode ∧
      r.Tells j Binary64.dot optimal clock q ∧ q.mode = .cached ∧ j.problem.columns = 3 ∧
      j.hits + j.registry.cache.size = 4) ∧
      ∃ r, run limited Binary64.dot optimal clock = .ok r ∧ r.exit = refusalCode ∧ r.calls = [] := by
  intro o limited optimal clock
  have hdensity : Binary64.zero.lt (Binary64.ofDecimal false 5 (-2)) = true ∧
      (Binary64.ofDecimal false 5 (-2)).le Binary64.one = true := by decide +kernel
  have haccepted : ¬ o.IsRefused := by
    rintro (⟨hc, hle⟩ | ⟨hd, hrange⟩ | ⟨hs, hnegative⟩ | hshare | ⟨limit, hlimit, -⟩)
    · cases hc
      exact absurd hle (by decide)
    · cases hd
      exact hrange hdensity
    · cases hs
      exact absurd hnegative (by decide)
    · cases hshare
    · cases hlimit
  have hrefused : limited.IsRefused := by
    refine .limit ⟨.given Binary64.zero, rfl, fun x hx => ?_⟩
    cases hx
    decide
  obtain ⟨-, hstory⟩ := run_tells_one_story o Binary64.dot optimal clock
  obtain ⟨-, hstory'⟩ := run_tells_one_story limited Binary64.dot optimal clock
  obtain ⟨r, hrun, hexit, -, hreport⟩ :=
    hstory 3 4 8 (Binary64.ofDecimal false 5 (-2)) .cached ⟨rfl, rfl, rfl, rfl, rfl⟩ (by decide) nofun
  obtain ⟨r', hrun', hexit', hcalls', -⟩ :=
    hstory' 3 4 8 (Binary64.ofDecimal false 5 (-2)) .cached ⟨rfl, rfl, rfl, rfl, rfl⟩ (by decide) nofun
  obtain ⟨-, j, q, -, htells, hmode, hcolumns, -, hbalance, -⟩ := hreport haccepted
  exact ⟨⟨r, j, q, hrun, fun h => haccepted (hexit.mp h), htells, hmode, hcolumns, hbalance rfl⟩,
    r', hrun', hexit'.mpr hrefused, (hcalls' hrefused).1⟩

/-- **A share of integer columns without a value** is refused as well, whatever scalar product, engine and clock are,
although columns, density and seed are in order and there is no time limit. -/
theorem blank_share_is_refused :
    let o : Options := { Options.plain with integerShare := .blank }
    Options.read ["--integer-share=--"] = .ok o ∧
      ¬ ((∃ c, o.columns = .given c ∧ c ≤ 0) ∨
        (∃ d, o.density = .given d ∧ ¬ (Binary64.zero.lt d = true ∧ d.le Binary64.one = true)) ∨
        (∃ s, o.seed = .given s ∧ s < 0) ∨ o.RefusesLimit) ∧
      ∀ dot engine clock, ∃ r, run o dot engine clock = .ok r ∧ r.exit = refusalCode ∧ r.calls = [] := by
  intro o
  refine ⟨by decide +kernel, ?_, fun dot engine clock => ?_⟩
  · rintro (⟨c, hc, hle⟩ | ⟨d, hd, hrange⟩ | ⟨s, hs, hnegative⟩ | ⟨limit, hlimit, -⟩)
    · cases hc
      exact absurd hle (by decide)
    · cases hd
      exact hrange (by decide +kernel)
    · cases hs
      exact absurd hnegative (by decide)
    · cases hlimit
  · have h : o.HasValues 200 400 8 (Binary64.ofDecimal false 5 (-2)) .cached := ⟨rfl, rfl, rfl, rfl, rfl⟩
    obtain ⟨r, hrun, hr⟩ := run_of_refused dot engine clock h (by decide) (.share rfl)
    exact ⟨r, hrun, hr.exit, hr.calls⟩

end CommandLine

end Milp
