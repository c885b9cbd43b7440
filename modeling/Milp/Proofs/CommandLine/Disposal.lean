import Milp.CommandLine.Run
import Milp.Proofs.Instance.Generated
import Milp.Proofs.Model.Reachable
import Milp.Proofs.Registry.Sessions

/-!
# What a run leaves behind

A run has at most one session, under the first handle. However it ends, the end goes through `Job.closing`, which
takes the handle out of use and disposes of the session.

* `Job.start` — the run in front of a generated instance: `prepare_of_generated`.
* `Job.Single` — a run with its one session, and `Job.final`, the registry after its end: `Single.closing`.
* `registryLeft_of_generated` and `registryLeft_of_refused` — the registry that a whole run leaves behind.
-/

namespace Milp

/-- **Nothing is left in use**: no handle, and no session that has not been disposed of. -/
structure Registry.Closed (r : Registry) : Prop where
  inUse : r.inUse = []
  disposed : ∀ s ∈ r.sessions, s.stage = .disposed

theorem Registry.closed_empty : Registry.empty.Closed where
  inUse := rfl
  disposed := by
    intro s hs
    cases hs

/-- An instance that has been generated has no more columns than an array can have entries. -/
theorem Instance.columns_lt_of_generate {params : Parameters} {p : Instance} (h : generate params = .ok p) :
    p.columns < entryLimit := by
  obtain ⟨⟨shape, start⟩, hread, hdraw⟩ := bind_eq_ok_iff.mp h
  obtain ⟨-, -, hread⟩ := bind_eq_ok_iff.mp hread
  obtain ⟨density, -, hread⟩ := bind_eq_ok_iff.mp hread
  obtain ⟨seed, -, hread⟩ := bind_eq_ok_iff.mp hread
  obtain ⟨columns, hcolumns, hread⟩ := bind_eq_ok_iff.mp hread
  obtain ⟨thresholds, -, hread⟩ := bind_eq_ok_iff.mp hread
  obtain ⟨patterns, -, hread⟩ := bind_eq_ok_iff.mp hread
  obtain ⟨rows, -, hread⟩ := bind_eq_ok_iff.mp hread
  cases hread
  cases hdraw
  obtain ⟨s₁, s₂, s₃, s₄, hdraw⟩ := Shape.exists_draw Random.Congruential.source
    ⟨columns, rows, patterns, Shape.patternSizeOf density columns, thresholds⟩ start
  rw [hdraw]
  show (Random.times _ columns _).1.length < entryLimit
  rw [Random.length_times]
  cases hgiven : params.columns with
  | int n =>
    rw [hgiven] at hcolumns
    obtain ⟨_, hcheck, hn⟩ := bind_eq_ok_iff.mp hcolumns
    cases hn
    unfold checkEntries at hcheck
    split at hcheck
    · assumption
    · cases hcheck
  | _ =>
    rw [hgiven] at hcolumns
    cases hcolumns

namespace CommandLine

variable {o : Options} {p : Instance} {j : Job} {e : Error}

namespace Job

/-! ## The beginning -/

/-- The session for an instance, before anything has been loaded. -/
def firstSession (p : Instance) : Session :=
  ⟨some 1, backend.name, Binary64.infinity, none, Binary64.zero,
    .building (Model.blank p.columns p.rows.length Binary64.infinity)⟩

/-- **A run in front of a generated instance.** -/
def start (o : Options) (p : Instance) (records : List Log.Record) : Job :=
  ⟨o, p, ⟨[firstSession p], [1], RowCache.empty .digest⟩, 1, firstSession p, 0, records⟩

theorem prepare_of_generated (hp : Instance.generate o.parameters = .ok p) :
    ∃ records, prepare o = .ok (start o p records) := by
  have hcreate : Session.create backend .absent (.int p.columns) (.int p.rows.length) =
      .ok { firstSession p with handle := none } := by
    show (Model.create (.int p.columns) (.int p.rows.length) (.float Binary64.infinity) >>= fun model => _) = _
    rw [Model.create_of_counts (Instance.columns_lt_of_generate hp)]
    rfl
  obtain ⟨records, hconstruct⟩ : ∃ records,
      Registry.empty.construct backend .absent (.int p.columns) (.int p.rows.length) =
        .ok ((start o p records).registry, 1, records) := by
    unfold Registry.construct
    rw [hcreate]
    exact ⟨_, rfl⟩
  refine ⟨records, ?_⟩
  rw [prepare, hp]
  dsimp only
  rw [hconstruct]
  rfl

/-- Parameters that are refused leave no session behind. -/
theorem prepare_of_refused (he : Instance.generate o.parameters = .error e) :
    ∃ stop, prepare o = .error stop ∧ stop.registry = Registry.empty := by
  rw [prepare, he]
  refine ⟨_, rfl, ?_⟩
  split <;> rfl

/-! ## The end -/

/-- The registry of a run after its end: the session has been disposed of, and the cache stays. -/
def final (j : Job) : Registry := ⟨[j.session.dispose.1], [], j.registry.cache⟩

theorem closed_final (j : Job) : j.final.Closed where
  inUse := rfl
  disposed := by
    intro s hs
    rw [List.mem_singleton.mp hs, Session.dispose_fst]

/-- **A run with its one session**, under the first handle. -/
structure Single (j : Job) : Prop where
  handle : j.handle = 1
  sessions : ∃ s, j.registry.sessions = [s]
  inUse : j.registry.inUse = [1]

theorem single_start (o : Options) (p : Instance) (records : List Log.Record) : (start o p records).Single where
  handle := rfl
  sessions := ⟨_, rfl⟩
  inUse := rfl

/-- **The one session is disposed of** at the end. -/
theorem Single.closing (h : j.Single) {α : Type} (ending : Registry → List Log.Record → Except Stop α) :
    j.closing ending = ending j.final j.session.dispose.2 := by
  obtain ⟨s, hs⟩ := h.sessions
  have hregistry : j.registry.update j.handle j.session = ⟨[j.session], [1], j.registry.cache⟩ := by
    rw [h.handle]
    show Registry.mk (j.registry.sessions.set 0 j.session) j.registry.inUse j.registry.cache = _
    rw [hs, h.inUse]
    rfl
  rw [Job.closing, hregistry, h.handle]
  rfl

/-- Building that stops has disposed of the session. -/
theorem Single.stopBuilding (h : j.Single) (α : Type) (e : Error) :
    ∃ stop, j.stopBuilding (α := α) e = .error stop ∧ stop.registry = j.final := by
  rw [Job.stopBuilding, h.closing]
  refine ⟨_, rfl, ?_⟩
  split <;> rfl

/-- **Building keeps the one session**, or stops and disposes of it. -/
theorem Single.build (h : j.Single) : (∃ j', j.build = .ok j' ∧ j'.Single) ∨
    ∃ stop j', j.build = .error stop ∧ stop.registry = final j' := by
  unfold Job.build
  split
  · obtain ⟨stop, hstop, hfinal⟩ := h.stopBuilding Job ‹Error›
    exact .inr ⟨stop, j, hstop, hfinal⟩
  · dsimp only
    split
    -- loading changes the session and the cache only, so it is still the one session that is disposed of
    · have hkept : Single { j with
          session := (Session.load ‹Session› j.registry.cache j.problem.given j.options.modeArg).1
          registry := { j.registry with
            cache := (Session.load ‹Session› j.registry.cache j.problem.given j.options.modeArg).2.1 } } :=
        ⟨h.handle, h.sessions, h.inUse⟩
      obtain ⟨stop, hstop, hfinal⟩ := hkept.stopBuilding Job ‹Error›
      exact .inr ⟨stop, _, hstop, hfinal⟩
    · exact .inl ⟨_, rfl, h.handle, h.sessions, h.inUse⟩

/-- **The end after solving** disposes of the session. -/
theorem Single.conclude (h : j.Single) (s : Session) (result : Except Error SolveStatus)
    (records : List Log.Record) (buildSeconds : Binary64) (calls : List EngineCall) :
    registryLeft (j.conclude s result records buildSeconds calls) = final { j with session := s } := by
  have hkept : Single { j with session := s, records := j.records ++ records } := ⟨h.handle, h.sessions, h.inUse⟩
  rw [Job.conclude, hkept.closing]
  split <;> rfl

end Job

/-! ## Whole runs -/

variable (dot : ScalarProduct) (engine : Engine) (clock : Clock)

/-- **A run with an instance has made one session and has disposed of it.** -/
theorem registryLeft_of_generated (hp : Instance.generate o.parameters = .ok p) :
    ∃ j : Job, registryLeft (carryOut o dot engine clock) = j.final := by
  obtain ⟨records, hprepare⟩ := Job.prepare_of_generated hp
  unfold carryOut
  rw [hprepare]
  rcases (Job.single_start o p records).build with ⟨j, hbuild, hsingle⟩ | ⟨stop, j, hbuild, hfinal⟩
  · refine ⟨{ j with session := (j.session.solve dot engine o.config clock 2).1 }, ?_⟩
    show registryLeft ((Job.start o p records).build >>= _) = _
    rw [hbuild]
    exact hsingle.conclude _ _ _ _ _
  · refine ⟨j, ?_⟩
    show registryLeft ((Job.start o p records).build >>= _) = _
    rw [hbuild]
    exact hfinal

/-- **A run without an instance has made no session.** -/
theorem registryLeft_of_refused (he : Instance.generate o.parameters = .error e) :
    registryLeft (carryOut o dot engine clock) = Registry.empty := by
  obtain ⟨stop, hprepare, hempty⟩ := Job.prepare_of_refused he
  unfold carryOut
  rw [hprepare]
  exact hempty

end CommandLine

end Milp
