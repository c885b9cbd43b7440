import Milp.Proofs.Session.Operations
import Milp.Session.Life

/-!
# The life cycle of a session

A session is built, solved at most once, read, and disposed of, whatever its users and its solver do.

* `Life.Next` — everything that an event can do to a life: `next_step`.
* `Phase` — which stage goes with which calls of the solver.
* `Stage.Moves` — the stages that may follow one another: `InPhase.next`.
* `Life.Sound` — the invariant of lives: `Sound.step` and `Sound.run`.
* `Life.Lawful` — the laws of a life: `lawful_of_create`.
* `solve_eq_run` — solving with an engine is calling the solver and hearing its reply.
-/

namespace Milp

/-! ## What events do -/

namespace Life

variable {l l' : Life}

/-- **What an event does to a life.** -/
inductive Next (l : Life) : Life → Prop where
  /-- nothing, but others may have used the row cache -/
  | shared (cache : RowCache) : Next l { l with cache := cache }
  /-- the model has been changed, unless it is frozen -/
  | changed {m m' : Model} (hm : l.session.stage.model? = some m) (hfrozen : m.frozen = true → m' = m)
      (cache : RowCache) : Next l { l.withModel m' with cache := cache }
  | limited {limit : Option Binary64} (hlimit : IsTimeLimit limit) :
      Next l { l with session := { l.session with timeLimit := limit } }
  /-- the solver is called -/
  | started {m : Model} (hm : l.session.stage = .building m) :
      Next l { l with
        session := { l.session with stage := .solving m.freeze none }
        given := l.given ++ [(m.freeze, l.session.timeLimit)]
        atWork := some m.freeze }
  /-- the solver has come back -/
  | replied {m : Model} (hwork : l.atWork = some m) {r : Reply} {elapsed : Binary64} {s : Session}
      {answer : Except Error SolveStatus}
      (hfinished : Session.Finished l.dot { l.session with elapsed := elapsed } m r (s, answer)) :
      Next l { l with session := s, atWork := none }
  | disposed : Next l { l with session := { l.session with stage := .disposed } }

theorem Next.same (l : Life) : l.Next l := .shared l.cache

/-- No event changes how scalar products are taken. -/
theorem Next.dot_eq (h : l.Next l') : l'.dot = l.dot := by
  cases h <;> rfl

/-- A model that is not frozen may be changed. -/
theorem Next.edited {m : Model} (hm : l.session.stage.model? = some m) (hopen : m.frozen = false)
    (m' : Model) (cache : RowCache) : l.Next { l.withModel m' with cache := cache } := by
  refine .changed hm (fun hfrozen => ?_) cache
  rw [hopen] at hfrozen
  cases hfrozen

/-- Putting the model back changes nothing. -/
theorem withModel_self {m : Model} (hm : l.session.stage.model? = some m) : l.withModel m = l := by
  have hstage : l.session.stage.withModel m = l.session.stage := by
    cases hstage : l.session.stage <;> rw [hstage] at hm <;> cases hm <;> rfl
  rw [withModel, hstage]

/-- An edit of the session's model, not through the session; if it is refused, the model is what it was. -/
theorem step_editModel {m : Model} (hm : l.session.model = .ok m) (e : Edit) :
    l.step (.editModel e) = match e.apply m l.cache with
      | (cache, .error refusal) => ({ l with cache := cache }, .error refusal)
      | (cache, .ok (m', hit)) => ({ l.withModel m' with cache := cache }, .ok (.edited hit)) := by
  simp only [step, hm, Edit.perform_eq]
  cases e.apply m l.cache with
  | mk cache result =>
    cases result with
    | error refusal =>
      show ({ l.withModel m with cache := cache }, _) = _
      rw [withModel_self (Session.model_eq_ok_iff.mp hm)]
      rfl
    | ok answer => rfl

/-- **Every event does one of these things.** -/
theorem next_step (l : Life) (e : Event) : l.Next (l.step e).1 := by
  cases e with
  | edit e =>
    have hedited := l.session.edited l.cache e
    simp only [step]
    generalize l.session.edit l.cache e = after at hedited ⊢
    cases hedited with
    | notBuilding | refused => exact .shared _
    | @accepted m m' cache hit hstage happly =>
      have hmodel : Stage.building m' = l.session.stage.withModel m' := by
        rw [hstage]
        rfl
      rw [hmodel]
      exact .edited (by rw [hstage]; rfl) (Edit.open_of_ok happly) m' cache
  | setTimeLimit seconds =>
    simp only [step]
    split
    · exact .same l
    · rename_i s hset
      obtain ⟨m, -, h⟩ := bind_eq_ok_iff.mp hset
      obtain ⟨limit, hlimit, h⟩ := bind_eq_ok_iff.mp h
      cases h
      exact .limited (isTimeLimit_of_normalize hlimit)
  | solve =>
    simp only [step]
    split
    · exact .same l
    · rename_i s m lines hstart
      obtain ⟨m', hbuild, h⟩ := bind_eq_ok_iff.mp hstart
      cases h
      exact .started (Session.modelToBuild_eq_ok_iff.mp hbuild)
  | reply r elapsed =>
    simp only [step]
    split
    · exact .same l
    · rename_i m hwork
      exact .replied hwork (Session.finished l.dot l.session m r elapsed)
  | dispose =>
    show l.Next { l with session := l.session.dispose.1 }
    unfold Session.dispose
    split
    · exact .same l
    · exact .disposed
  | editModel e =>
    cases hmodel : l.session.model with
    | error refusal =>
      simp only [step, hmodel]
      exact .same l
    | ok m =>
      rw [step_editModel hmodel]
      split
      · exact .shared _
      · rename_i cache m' hit happly
        exact .edited (Session.model_eq_ok_iff.mp hmodel) (Edit.open_of_ok happly) m' cache
  | freezeModel =>
    simp only [step]
    split
    · exact .same l
    · rename_i m hmodel
      exact .changed (Session.model_eq_ok_iff.mp hmodel) Model.freeze_of_frozen l.cache
  | shareCache cache => exact .shared cache
  | infinity | solution | score => exact .same l

end Life

/-! ## Stages and calls of the solver -/

/-- **Which stage goes with which calls of the solver**: the models and time limits that it was called with, and
the model that it is still at work on. The solver is called once at most, and from then on the session's model
is the frozen one that it was called with. -/
inductive Phase (dot : ScalarProduct) : Stage → List (Model × Option Binary64) → Option Model → Prop where
  | building (m : Model) : Phase dot (.building m) [] none
  | waiting {m : Model} (hm : m.frozen = true) (limit : Option Binary64) :
      Phase dot (.solving m none) [(m, limit)] (some m)
  | unread {m : Model} (hm : m.frozen = true) (limit : Option Binary64) (status : SolveStatus) :
      Phase dot (.solving m (some status)) [(m, limit)] none
  | solved {m : Model} (hm : m.frozen = true) (limit : Option Binary64) {status : SolveStatus}
      {xs : List Binary64} (hstatus : status ≠ .error) (hlength : xs.length = m.columns) :
      Phase dot (.solved m status xs (dot m.objective xs)) [(m, limit)] none
  | failed {m : Model} (hm : m.frozen = true) (limit : Option Binary64) :
      Phase dot (.failed m) [(m, limit)] none
  | unused : Phase dot .disposed [] none
  | released {m : Model} (hm : m.frozen = true) (limit : Option Binary64) {atWork : Option Model}
      (hwork : ∀ m', atWork = some m' → m' = m) : Phase dot .disposed [(m, limit)] atWork

namespace Phase

variable {dot : ScalarProduct} {stage : Stage} {given : List (Model × Option Binary64)} {atWork : Option Model}
variable {m : Model}

/-- **The solver is called once at most.** -/
theorem length_given (h : Phase dot stage given atWork) : given.length ≤ 1 := by
  cases h <;> simp

/-- **What the solver was called with is the session's model**, frozen, as long as the session has one. -/
theorem model_of_given (h : Phase dot stage given atWork) {g : Model × Option Binary64} (hg : g ∈ given) :
    g.1.frozen = true ∧ ∀ m, stage.model? = some m → m = g.1 := by
  cases h with
  | building m => cases hg
  | unused => cases hg
  | waiting hm limit | unread hm limit status | failed hm limit =>
    rw [List.mem_singleton.mp hg]
    exact ⟨hm, fun m' hm' => (Option.some.inj hm').symm⟩
  | solved hm limit hstatus hlength =>
    rw [List.mem_singleton.mp hg]
    exact ⟨hm, fun m' hm' => (Option.some.inj hm').symm⟩
  | released hm limit hwork =>
    rw [List.mem_singleton.mp hg]
    exact ⟨hm, fun m' hm' => by cases hm'⟩

/-- **Outside of building the solver has been called with the session's model**, which is frozen. -/
theorem called (h : Phase dot stage given atWork) (hm : stage.model? = some m) :
    stage = .building m ∧ given = [] ∨ m.frozen = true ∧ ∃ limit, given = [(m, limit)] := by
  cases h with
  | building m' =>
    cases hm
    exact .inl ⟨rfl, rfl⟩
  | waiting hfrozen limit | unread hfrozen limit | failed hfrozen limit =>
    cases hm
    exact .inr ⟨hfrozen, limit, rfl⟩
  | solved hfrozen limit =>
    cases hm
    exact .inr ⟨hfrozen, limit, rfl⟩
  | unused | released => cases hm

/-- Disposing of a session, in whatever stage it is. -/
theorem dispose (h : Phase dot stage given atWork) : Phase dot .disposed given atWork := by
  cases h with
  | building m => exact .unused
  | waiting hm limit => exact .released hm limit fun m' hm' => (Option.some.inj hm').symm
  | unread hm limit | failed hm limit => exact .released hm limit fun m' hm' => by cases hm'
  | solved hm limit => exact .released hm limit fun m' hm' => by cases hm'
  | unused => exact .unused
  | released hm limit hwork => exact .released hm limit hwork

/-- A session whose solver is at work waits for it, unless it has been disposed of. -/
theorem waiting_of_atWork (h : Phase dot stage given (some m)) (halive : stage ≠ .disposed) :
    stage = .solving m none ∧ m.frozen = true ∧ ∃ limit, given = [(m, limit)] := by
  cases h with
  | waiting hm limit => exact ⟨rfl, hm, limit, rfl⟩
  | released hm limit hwork => exact absurd rfl halive

/-- A session that is being built has not called its solver: its model may be another one. -/
theorem rebuild (h : Phase dot (.building m) given atWork) (m' : Model) :
    Phase dot (.building m') given atWork := by
  cases h
  exact .building m'

/-- The solver is called with the model that has been built. -/
theorem start (h : Phase dot (.building m) given atWork) {m' : Model} (hm : m'.frozen = true)
    (limit : Option Binary64) : Phase dot (.solving m' none) (given ++ [(m', limit)]) (some m') := by
  cases h
  exact .waiting hm limit

/-- A reply that comes too late. -/
theorem forget (h : Phase dot .disposed given atWork) : Phase dot .disposed given none := by
  cases h with
  | unused => exact .unused
  | released hm limit hwork => exact .released hm limit fun m' hm' => by cases hm'

end Phase

/-! ## The order of the stages -/

/-- **`st.Moves st'`** — the stage `st'` may come after `st`, or be `st` still. -/
inductive Stage.Moves : Stage → Stage → Prop where
  | stays (st : Stage) : Moves st st
  | built (m m' : Model) : Moves (.building m) (.building m')
  | started (m : Model) : Moves (.building m) (.solving m.freeze none)
  | solved (m : Model) (status : SolveStatus) (xs : List Binary64) (score : Binary64) :
      Moves (.solving m none) (.solved m status xs score)
  | failed (m : Model) : Moves (.solving m none) (.failed m)
  /-- a solution that is no vector of numbers has come back -/
  | unread (m : Model) (status : SolveStatus) : Moves (.solving m none) (.solving m (some status))
  | disposed (st : Stage) : Moves st .disposed

/-- Nothing comes after disposal. -/
theorem Stage.Moves.eq_disposed {st : Stage} (h : Stage.Moves .disposed st) : st = .disposed := by
  cases h <;> rfl

/-- A stage with the model that it has. -/
theorem Stage.withModel_self {st : Stage} {m : Model} (h : st.model? = some m) : st.withModel m = st := by
  cases st with
  | disposed => cases h
  | building | solving | solved | failed =>
    cases h
    rfl

/-- **The events that would change a session**: its model, its time limit or its stage. -/
def Event.IsChange : Event → Prop
  | .edit _ | .setTimeLimit _ | .solve | .editModel _ => True
  | _ => False

namespace Life

variable {l l' : Life}

/-- The stage of a life goes with the calls of its solver. -/
def InPhase (l : Life) : Prop := Phase l.dot l.session.stage l.given l.atWork

/-- **A step of a life** leads into a phase again, and one stage on at most. -/
theorem InPhase.next (h : l.InPhase) (hnext : l.Next l') :
    l'.InPhase ∧ l.session.stage.Moves l'.session.stage := by
  cases hnext with
  | shared cache => exact ⟨h, .stays _⟩
  | limited hlimit => exact ⟨h, .stays _⟩
  | disposed => exact ⟨Phase.dispose h, .disposed _⟩
  | @changed m m' hm hfrozen cache =>
    show Phase l.dot (l.session.stage.withModel m') l.given l.atWork ∧
      l.session.stage.Moves (l.session.stage.withModel m')
    rcases Phase.called h hm with ⟨hstage, -⟩ | ⟨hm', -⟩
    · rw [InPhase, hstage] at h
      rw [hstage]
      exact ⟨h.rebuild m', .built m m'⟩
    · rw [hfrozen hm', Stage.withModel_self hm]
      exact ⟨h, .stays _⟩
  | @started m hm =>
    show Phase l.dot (.solving m.freeze none) (l.given ++ [(m.freeze, l.session.timeLimit)]) (some m.freeze) ∧
      l.session.stage.Moves (.solving m.freeze none)
    rw [InPhase, hm] at h
    rw [hm]
    exact ⟨h.start rfl l.session.timeLimit, .started m⟩
  | @replied m hwork r elapsed s answer hfinished =>
    show Phase l.dot s.stage l.given none ∧ l.session.stage.Moves s.stage
    rw [InPhase, hwork] at h
    cases hfinished with
    | late hdisposed =>
      have hdisposed : l.session.stage = .disposed := hdisposed
      rw [hdisposed] at h ⊢
      exact ⟨h.forget, .stays _⟩
    | solved halive hr hstatus hread =>
      obtain ⟨hstage, hm, limit, hgiven⟩ := h.waiting_of_atWork halive
      rw [hstage, hgiven]
      exact ⟨.solved hm limit hstatus (Arg.length_vector hread), .solved ..⟩
    | failed halive | misfit halive =>
      obtain ⟨hstage, hm, limit, hgiven⟩ := h.waiting_of_atWork halive
      rw [hstage, hgiven]
      exact ⟨.failed hm limit, .failed m⟩
    | unread halive hr hread =>
      obtain ⟨hstage, hm, limit, hgiven⟩ := h.waiting_of_atWork halive
      rw [hstage, hgiven]
      exact ⟨.unread hm limit _, .unread m _⟩

/-! ## Whole lives -/

/-- **The invariant of lives.** -/
structure Sound (l : Life) : Prop where
  phase : l.InPhase
  limit : IsTimeLimit l.session.timeLimit

/-- **Every event keeps the invariant.** -/
theorem Sound.step (h : l.Sound) (e : Event) : (l.step e).1.Sound where
  phase := (h.phase.next (l.next_step e)).1
  limit := by
    have hnext := l.next_step e
    generalize (l.step e).1 = l' at hnext
    cases hnext with
    | limited hlimit => exact hlimit
    | replied hwork hfinished =>
      rw [hfinished.timeLimit_eq]
      exact h.limit
    | shared | changed | started | disposed => exact h.limit

/-- **Events in a row keep the invariant.** -/
theorem Sound.run (h : l.Sound) (events : List Event) : (l.run events).Sound := by
  induction events generalizing l with
  | nil => exact h
  | cons e rest ih =>
    rw [run_cons]
    exact ih (h.step e)

/-- **Every life begins sound.** -/
theorem sound_start {backend : Backend} {timeLimit columns rowsHint : Arg} {s : Session}
    (hs : Session.create backend timeLimit columns rowsHint = .ok s) (handle : Option Nat)
    (dot : ScalarProduct) (cache : RowCache) : (start dot { s with handle := handle } cache).Sound := by
  obtain ⟨I, -, h⟩ := bind_eq_ok_iff.mp hs
  obtain ⟨m, -, h⟩ := bind_eq_ok_iff.mp h
  obtain ⟨limit, hlimit, h⟩ := bind_eq_ok_iff.mp h
  cases h
  exact ⟨.building m, isTimeLimit_of_normalize hlimit⟩

/-- Scalar products are taken in one way all the time. -/
theorem dot_run (l : Life) (events : List Event) : (l.run events).dot = l.dot := by
  induction events generalizing l with
  | nil => rfl
  | cons e rest ih => exact (ih _).trans (l.next_step e).dot_eq

/-- What the solver was called with is not forgotten. -/
theorem Next.mem_given (h : l.Next l') {g : Model × Option Binary64} (hg : g ∈ l.given) :
    g ∈ l'.given := by
  cases h with
  | started hm => exact List.mem_append_left _ hg
  | shared | changed | limited | replied | disposed => exact hg

theorem mem_given_run {g : Model × Option Binary64} (hg : g ∈ l.given) (events : List Event) :
    g ∈ (l.run events).given := by
  induction events generalizing l with
  | nil => exact hg
  | cons e rest ih => exact ih ((l.next_step e).mem_given hg)

/-- **Disposal is final.** -/
theorem Sound.stage_run_of_disposed (h : l.Sound) (hdisposed : l.session.stage = .disposed)
    (events : List Event) : (l.run events).session.stage = .disposed := by
  induction events generalizing l with
  | nil => exact hdisposed
  | cons e rest ih =>
    have hmoves := (h.phase.next (l.next_step e)).2
    rw [hdisposed] at hmoves
    exact ih (h.step e) hmoves.eq_disposed

/-! ## The laws -/

/-- **The laws of a life**, from some moment on. -/
structure Lawful (l : Life) : Prop where
  /-- every event leads to a stage that may come next -/
  moves : ∀ e, l.session.stage.Moves (l.step e).1.session.stage
  /-- a session that has been disposed of stays so -/
  final : l.session.stage = .disposed → ∀ later, (l.run later).session.stage = .disposed
  /-- the solver is called once at most -/
  once : l.given.length ≤ 1
  /-- it is not called while the model is being built, and has been called with the model after that -/
  called : ∀ m, l.session.stage.model? = some m →
    l.session.stage = .building m ∧ l.given = [] ∨ ∃ limit, l.given = [(m, limit)]
  /-- the model that it was called with is the session's for good, until it is released -/
  constant : ∀ g ∈ l.given, g.1.frozen = true ∧ ∀ later, g ∈ (l.run later).given ∧
    ∀ m, (l.run later).session.stage.model? = some m → m = g.1
  /-- a solved session has a status, a solution and a value that go together -/
  solved : ∀ m status xs score, l.session.stage = .solved m status xs score →
    status ∈ [.optimal, .infeasible, .unbounded, .timeLimit] ∧ xs.length = m.columns ∧
      score = l.dot m.objective xs ∧
      (l.step .solution).2 = .ok (.vector xs) ∧ (l.step .score).2 = .ok (.number score)
  /-- a session that has failed says so, and has no solution and no value -/
  failed : ∀ m, l.session.stage = .failed m → l.session.stage.status? = some .error ∧
    ∀ e ∈ [Event.solution, .score], ∃ refusal,
      (l.step e).2 = .error refusal ∧ refusal.category = .invalidState
  /-- when the solver comes back, the answer is the status that it brings, or an error; and it is the status that
  is kept, if the session is still there -/
  answered : ∀ m, l.atWork = some m → ∀ r elapsed, r.IsVector → ∃ status,
    (l.step (.reply r elapsed)).2 = .ok (.ended status) ∧ (status = r.status ∨ status = .error) ∧
      ((l.step (.reply r elapsed)).1.session.stage = .disposed ∨
        (l.step (.reply r elapsed)).1.session.stage.status? = some status ∧
          ∀ m' heard, (l.step (.reply r elapsed)).1.session.stage ≠ .solving m' heard)
  /-- the time limit is a positive finite number, if there is one -/
  limit : IsTimeLimit l.session.timeLimit
  /-- outside of building every change is refused for the moment, and has no effect -/
  refused : (∀ m, l.session.stage ≠ .building m) → ∀ e : Event, e.IsChange →
    ∃ refusal, l.step e = (l, .error refusal) ∧ refusal.isInvalidState = true

/-- **Outside of building every change is refused.** -/
theorem InPhase.refused (h : l.InPhase) (hstage : ∀ m, l.session.stage ≠ .building m) {e : Event}
    (he : e.IsChange) :
    ∃ refusal, l.step e = (l, .error refusal) ∧ refusal.isInvalidState = true := by
  cases e with
  | edit e =>
    obtain ⟨refusal, hbuild, hstate⟩ := Session.modelToBuild_of_not_building hstage e.name
    refine ⟨refusal, ?_, hstate⟩
    simp only [step, Session.edit, hbuild]
    rfl
  | setTimeLimit seconds =>
    obtain ⟨refusal, hbuild, hstate⟩ := Session.modelToBuild_of_not_building hstage "set_time_limit"
    refine ⟨refusal, ?_, hstate⟩
    simp only [step, Session.setTimeLimit, hbuild]
    rfl
  | solve =>
    obtain ⟨refusal, hbuild, hstate⟩ := Session.modelToBuild_of_not_building hstage "solve"
    refine ⟨refusal, ?_, hstate⟩
    simp only [step, Session.startSolve, hbuild]
    rfl
  | editModel e =>
    cases hmodel : l.session.stage.model? with
    | none =>
      refine ⟨.disposed l.session.handle, ?_, rfl⟩
      simp only [step, Session.model, hmodel]
    | some m =>
      rcases Phase.called h hmodel with ⟨hbuilding, -⟩ | ⟨hfrozen, -⟩
      · exact absurd hbuilding (hstage m)
      · refine ⟨.frozen, ?_, rfl⟩
        rw [step_editModel (Session.model_eq_ok_iff.mpr hmodel), Edit.apply_of_frozen hfrozen]
  | reply | infinity | solution | score | dispose | freezeModel | shareCache => cases he

/-- **The answer of a solver that comes back** is the status that is kept. -/
theorem answered_of_atWork {m : Model} (hwork : l.atWork = some m) {r : Reply} (hr : r.IsVector)
    (elapsed : Binary64) :
    ∃ status, (l.step (.reply r elapsed)).2 = .ok (.ended status) ∧ (status = r.status ∨ status = .error) ∧
      ((l.step (.reply r elapsed)).1.session.stage = .disposed ∨
        (l.step (.reply r elapsed)).1.session.stage.status? = some status ∧
          ∀ m' heard, (l.step (.reply r elapsed)).1.session.stage ≠ .solving m' heard) := by
  have hfinished := Session.finished l.dot l.session m r elapsed
  simp only [step, hwork]
  generalize l.session.finishSolve l.dot m r elapsed = outcome at hfinished ⊢
  obtain ⟨s, lines, result⟩ := outcome
  cases hfinished with
  | late hdisposed => exact ⟨r.status, rfl, .inl rfl, .inl hdisposed⟩
  | solved halive hreply hstatus hread =>
    subst hreply
    refine ⟨_, rfl, .inl rfl, .inr ⟨rfl, ?_⟩⟩
    intro m' heard hsolving
    cases hsolving
  | failed halive | misfit halive =>
    refine ⟨.error, rfl, .inr rfl, .inr ⟨rfl, ?_⟩⟩
    intro m' heard hsolving
    cases hsolving
  | unread halive hreply hread =>
    -- a vector of numbers can always be read
    subst hreply
    obtain ⟨xs, rfl⟩ := hr
    rw [Arg.numberArray_ofFloats] at hread
    cases hread

/-- What a solved session has goes together. -/
theorem InPhase.solved (h : l.InPhase) {m : Model} {status : SolveStatus} {xs : List Binary64}
    {score : Binary64} (hstage : l.session.stage = .solved m status xs score) :
    status ≠ .error ∧ xs.length = m.columns ∧ score = l.dot m.objective xs := by
  rw [InPhase, hstage] at h
  generalize l.given = given, l.atWork = atWork at h
  cases h with
  | solved hm limit hstatus hlength => exact ⟨hstatus, hlength, rfl⟩

/-- The solution and the value of a solved session can be read. -/
theorem readings_of_solved {m : Model} {status : SolveStatus} {xs : List Binary64} {score : Binary64}
    (hstage : l.session.stage = .solved m status xs score) :
    (l.step .solution).2 = .ok (.vector xs) ∧ (l.step .score).2 = .ok (.number score) := by
  simp only [step, Session.solution, Session.score, Session.result, hstage]
  exact ⟨rfl, rfl⟩

/-- Neither of them can be read if solving has failed. -/
theorem readings_of_failed {m : Model} (hstage : l.session.stage = .failed m) :
    ∀ e ∈ [Event.solution, .score], ∃ refusal,
      (l.step e).2 = .error refusal ∧ refusal.category = .invalidState := by
  refine List.forall_mem_cons.mpr ⟨?_, List.forall_mem_singleton.mpr ?_⟩
  · refine ⟨.notSolved "get_column_solution" "failed", ?_, rfl⟩
    simp only [step, Session.solution, Session.result, hstage]
    rfl
  · refine ⟨.notSolved "get_score" "failed", ?_, rfl⟩
    simp only [step, Session.score, Session.result, hstage]
    rfl

/-- **The laws follow from the invariant.** -/
theorem Sound.lawful (h : l.Sound) : l.Lawful where
  moves := fun e => (h.phase.next (l.next_step e)).2
  final := fun hdisposed => h.stage_run_of_disposed hdisposed
  once := Phase.length_given h.phase
  called := fun m hm => (Phase.called h.phase hm).imp_right fun hgiven => hgiven.2
  constant := by
    intro g hg
    refine ⟨(Phase.model_of_given h.phase hg).1, fun later => ?_⟩
    have hlater := mem_given_run hg later
    exact ⟨hlater, (Phase.model_of_given (h.run later).phase hlater).2⟩
  solved := by
    intro m status xs score hstage
    obtain ⟨hstatus, hlength, hscore⟩ := h.phase.solved hstage
    have hcases : status ∈ [.optimal, .infeasible, .unbounded, .timeLimit] := by
      cases status <;> simp at hstatus ⊢
    exact ⟨hcases, hlength, hscore, readings_of_solved hstage⟩
  failed := by
    intro m hstage
    exact ⟨by rw [hstage]; rfl, readings_of_failed hstage⟩
  answered := fun m hwork r elapsed hr => answered_of_atWork hwork hr elapsed
  limit := h.limit
  refused := fun hstage e he => h.phase.refused hstage he

/-- **The life cycle of a session.** Whatever is done with a session after it has been created, in whatever
order, whatever its solver does, and however scalar products are taken, the laws hold at every moment. -/
theorem lawful_of_create {backend : Backend} {timeLimit columns rowsHint : Arg} {s : Session}
    (hs : Session.create backend timeLimit columns rowsHint = .ok s) (handle : Option Nat)
    (dot : ScalarProduct) (cache : RowCache) (events : List Event) :
    ((start dot { s with handle := handle } cache).run events).Lawful :=
  ((sound_start hs handle dot cache).run events).lawful

/-- Two lives of a session with one column: in one of them it is solved, and nothing that comes later has an
effect; in the other it is disposed of before the solver comes back. -/
theorem lawful_of_two_lives :
    let one := Binary64.one
    let s : Session := ⟨none, "plain", Binary64.infinity, none, Binary64.zero,
      .building (Model.blank 1 0 Binary64.infinity)⟩
    let m := { (Model.blank 1 0 Binary64.infinity).freeze with objective := [one] }
    let begun (events : List Event) := (start Binary64.dot s (RowCache.empty .digest)).run events
    let objective : Arg := .list [.int 1]
    let reply : Event := .reply (.outcome .optimal (Arg.ofFloats [one]) "") one
    let solved := begun [.edit (.objective objective), .solve, reply, .solve, reply, .setTimeLimit (.int 1)]
    let disposed := begun [.edit (.objective objective), .solve, .dispose, reply]
    solved.session.stage = .solved m .optimal [one] one ∧ solved.Lawful ∧
      disposed.session.stage = .disposed ∧ disposed.given = [(m, none)] ∧ disposed.Lawful := by
  intro one s m begun objective reply solved disposed
  have hs : Session.create ⟨"plain", .float Binary64.infinity⟩ .absent (.int 1) (.int 0) = .ok s := by
    rfl
  refine ⟨?_, lawful_of_create hs none _ _ _, ?_, ?_, lawful_of_create hs none _ _ _⟩
  · decide +kernel
  · decide +kernel
  · decide +kernel

/-! ## Engines -/

/-- **Solving with an engine** is calling the solver and hearing its reply, with nothing in between. -/
theorem solve_eq_run {s : Session} {m : Model} (hm : s.stage = .building m) (cache : RowCache) (dot : ScalarProduct)
    (engine : Engine) (config : Config) (clock : Clock) (read : Nat) :
    ∃ r elapsed, r.IsVector ∧
      (s.solve dot engine config clock read).1 = ((start dot s cache).run [.solve, .reply r elapsed]).session ∧
      (((start dot s cache).run [.solve]).step (.reply r elapsed)).2 =
        (s.solve dot engine config clock read).2.result.map .ended := by
  let work := m.freeze.solve engine config (limitArg s.timeLimit) clock (read + 1)
  obtain ⟨lines, hstart⟩ := Session.startSolve_of_building hm
  refine ⟨Reply.ofResult work.result, (clock (read + 1 + work.readings)).sub (clock read),
    Reply.isVector_ofResult _, ?_, ?_⟩
  · simp only [Session.solve, run_cons, run_nil, step, start, hstart]
    rfl
  · simp only [Session.solve, run_cons, run_nil, step, start, hstart]
    rfl

end Life

end Milp
