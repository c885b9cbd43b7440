import Milp.Proofs.Model.Alike
import Milp.Proofs.Session.Requests

/-!
# Sessions that look the same

Two sessions whose models look the same are asked the same: they answer the same and go on looking the same,
whatever their handles and row caches are. This needs a solver that looks at numbers only.

* `Session.Alike` — sessions that differ in their handles, and in the signs of zeros in their models.
* `LooksAtNumbers` — what is asked of a solver.
* `Session.Alike.respond` — sessions that look the same answer the same.
-/

namespace Milp

/-- **Stages that look the same.** -/
inductive Stage.Alike : Stage → Stage → Prop where
  | building {m m' : Model} (hm : m.Alike m') : Alike (.building m) (.building m')
  | solving {m m' : Model} (hm : m.Alike m') (heard : Option SolveStatus) :
      Alike (.solving m heard) (.solving m' heard)
  | solved {m m' : Model} (hm : m.Alike m') (status : SolveStatus) (solution : List Binary64) (score : Binary64) :
      Alike (.solved m status solution score) (.solved m' status solution score)
  | failed {m m' : Model} (hm : m.Alike m') : Alike (.failed m) (.failed m')
  | disposed : Alike .disposed .disposed

/-- **Sessions that look the same**: their handles may differ, and the signs of zeros in their models. -/
structure Session.Alike (s s' : Session) : Prop where
  solver : s.solver = s'.solver
  infinity : s.infinity = s'.infinity
  timeLimit : s.timeLimit = s'.timeLimit
  elapsed : s.elapsed = s'.elapsed
  stage : s.stage.Alike s'.stage

/-- **A solver that looks at numbers**: what it comes back with is the same for models that look the same. -/
def LooksAtNumbers (reply : Model → Option Binary64 → Reply) : Prop :=
  ∀ m m' limit, m.Alike m' → reply m limit = reply m' limit

namespace Session

variable {s s' : Session} {m m' : Model} {cache cache' : RowCache} {w : Outside}

/-- A session with a well-formed model looks like itself, under whatever handle. -/
theorem WellFormed.alike (hs : s.WellFormed) (handle handle' : Option Nat) :
    Alike { s with handle := handle } { s with handle := handle' } where
  solver := rfl
  infinity := rfl
  timeLimit := rfl
  elapsed := rfl
  stage := by
    show s.stage.Alike s.stage
    cases hstage : s.stage with
    | disposed => exact .disposed
    | building m => exact .building (hs m (congrArg Stage.model? hstage)).alike
    | solving m heard => exact .solving (hs m (congrArg Stage.model? hstage)).alike heard
    | solved m status xs score => exact .solved (hs m (congrArg Stage.model? hstage)).alike status xs score
    | failed m => exact .failed (hs m (congrArg Stage.model? hstage)).alike

/-! ## Operations -/

theorem Alike.withStage (hs : s.Alike s') {stage stage' : Stage} (h : stage.Alike stage') :
    Alike { s with stage := stage } { s' with stage := stage' } :=
  { hs with stage := h }

/-- What is refused depends on the stage only. -/
theorem Alike.modelToBuild (hs : s.Alike s') (operation : String) :
    SameOutcome Model.Alike (s.modelToBuild operation) (s'.modelToBuild operation) := by
  have hstage := hs.stage
  unfold Session.modelToBuild
  generalize s.stage = stage, s'.stage = stage' at hstage
  cases hstage with
  | building hm => exact .accepted hm
  | solving | solved | failed | disposed => exact .refused rfl

theorem Alike.result (hs : s.Alike s') (operation : String) :
    SameOutcome (· = ·) (s.result operation) (s'.result operation) := by
  have hstage := hs.stage
  unfold Session.result
  generalize s.stage = stage, s'.stage = stage' at hstage
  cases hstage with
  | solved => exact .accepted rfl
  | building | solving | failed | disposed => exact .refused rfl

theorem Alike.getInfinity (hs : s.Alike s') : SameOutcome (· = ·) s.getInfinity s'.getInfinity := by
  have hstage := hs.stage
  have hinfinity := hs.infinity
  unfold Session.getInfinity Session.model
  generalize s.stage = stage, s'.stage = stage' at hstage
  cases hstage with
  | building | solving | solved | failed => exact .accepted hinfinity
  | disposed => exact .refused rfl

theorem Alike.setTimeLimit (hs : s.Alike s') (seconds : Arg) :
    SameOutcome Alike (s.setTimeLimit seconds) (s'.setTimeLimit seconds) := by
  have hbuild := hs.modelToBuild "set_time_limit"
  unfold Session.setTimeLimit
  generalize s.modelToBuild "set_time_limit" = x, s'.modelToBuild "set_time_limit" = x' at hbuild
  cases hbuild with
  | refused hcategory => exact .refused hcategory
  | accepted =>
    cases normalizeTimeLimit seconds with
    | error e => exact .refused rfl
    | ok limit => exact .accepted { hs with timeLimit := rfl }

theorem Alike.edit (hs : s.Alike s') (hwell : s.WellFormed) (hcache : cache.Sound) (hcache' : cache'.Sound)
    (e : Edit) :
    (s.edit cache e).1.1.Alike (s'.edit cache' e).1.1 ∧
      SameOutcome (fun _ _ => True) (s.edit cache e).2 (s'.edit cache' e).2 := by
  have hbuild := hs.modelToBuild e.name
  unfold Session.edit
  cases hm : s.modelToBuild e.name with
  | error refusal =>
    rw [hm] at hbuild
    generalize s'.modelToBuild e.name = x' at hbuild
    cases hbuild with
    | refused hcategory => exact ⟨hs, .refused hcategory⟩
  | ok m =>
    have hwellm := hwell.model (modelToBuild_eq_ok_iff.mp hm)
    rw [hm] at hbuild
    generalize s'.modelToBuild e.name = x' at hbuild
    cases hbuild with
    | @accepted _ m' halike =>
      have happly := halike.apply hwellm hcache hcache' e
      simp only [Edit.perform_eq]
      generalize e.apply m cache = x, e.apply m' cache' = x' at happly
      obtain ⟨cache₁, x⟩ := x
      obtain ⟨cache₂, x'⟩ := x'
      cases happly with
      | refused hcategory => exact ⟨hs.withStage (.building halike), .refused hcategory⟩
      | accepted hedited => exact ⟨hs.withStage (.building hedited), .accepted trivial⟩

/-! ## Solving -/

theorem Alike.startSolve (hs : s.Alike s') :
    SameOutcome (fun p p' => p.1.Alike p'.1 ∧ p.2.1.Alike p'.2.1) s.startSolve s'.startSolve := by
  have hbuild := hs.modelToBuild "solve"
  unfold Session.startSolve
  generalize s.modelToBuild "solve" = x, s'.modelToBuild "solve" = x' at hbuild
  cases hbuild with
  | refused hcategory => exact .refused hcategory
  | accepted hm => exact .accepted ⟨hs.withStage (.solving hm.freeze none), hm.freeze⟩

theorem Alike.takeSolution (hs : s.Alike s') (dot : ScalarProduct) (hm : m.Alike m') (status : SolveStatus)
    (solution : Arg) :
    (s.takeSolution dot m status solution).1.Alike (s'.takeSolution dot m' status solution).1 ∧
      (s.takeSolution dot m status solution).2.2 = (s'.takeSolution dot m' status solution).2.2 := by
  have hcolumns : m.columns = m'.columns := hm.eq_of_bare Model.columns fun _ => rfl
  have hobjective : m.objective = m'.objective := hm.eq_of_bare Model.objective fun _ => rfl
  unfold Session.takeSolution
  rw [hcolumns, hobjective]
  cases solution.numberArray with
  | error e => exact ⟨hs.withStage (.solving hm _), rfl⟩
  | ok grid =>
    dsimp only
    split
    · exact ⟨hs.withStage (.solved hm _ _ _), rfl⟩
    · exact ⟨hs.withStage (.failed hm), rfl⟩

theorem Alike.finishSolve (hs : s.Alike s') (dot : ScalarProduct) (hm : m.Alike m') (r : Reply) (elapsed : Binary64) :
    (s.finishSolve dot m r elapsed).1.Alike (s'.finishSolve dot m' r elapsed).1 ∧
      (s.finishSolve dot m r elapsed).2.2 = (s'.finishSolve dot m' r elapsed).2.2 := by
  have hread : (s.readReply m r).1 = (s'.readReply m' r).1 ∧ (s.readReply m r).2.1 = (s'.readReply m' r).2.1 := by
    cases r with
    | outcome => exact ⟨rfl, rfl⟩
    | failure text =>
      have hcolumns : m.columns = m'.columns := hm.eq_of_bare Model.columns fun _ => rfl
      exact ⟨rfl, congrArg (fun n => Arg.ofFloats (List.replicate n Binary64.zero)) hcolumns⟩
  have hwaiting : Alike { s with elapsed := elapsed } { s' with elapsed := elapsed } := { hs with elapsed := rfl }
  have htaken := fun status solution => hwaiting.takeSolution dot hm status solution
  have hfailed := hwaiting.withStage (.failed hm)
  simp only [Session.finishSolve]
  generalize s.readReply m r = given, s'.readReply m' r = given' at hread
  obtain ⟨status, solution, message, reported⟩ := given
  obtain ⟨status', solution', message', reported'⟩ := given'
  obtain ⟨rfl, rfl⟩ := hread
  have hstage := hs.stage
  obtain ⟨handle, solver, infinity, limit, elapsed₀, stage⟩ := s
  obtain ⟨handle', solver', infinity', limit', elapsed₀', stage'⟩ := s'
  cases hstage with
  | disposed => exact ⟨hwaiting, rfl⟩
  | building | solving | solved | failed =>
    cases hasSolution status with
    | true => exact htaken status solution
    | false => exact ⟨hfailed, rfl⟩

/-! ## Requests -/

/-- **Sessions that look the same answer the same**, and go on looking the same. -/
theorem Alike.respond (hs : s.Alike s') (hwell : s.WellFormed) (hcache : cache.Sound) (hcache' : cache'.Sound)
    (hreply : LooksAtNumbers w.reply) (q : Request) :
    (s.respond w cache q).1.1.Alike (s'.respond w cache' q).1.1 ∧
      SameOutcome (· = ·) (s.respond w cache q).2 (s'.respond w cache' q).2 := by
  cases q with
  | edit e =>
    obtain ⟨hafter, hanswer⟩ := hs.edit hwell hcache hcache' e
    exact ⟨hafter, hanswer.map fun _ _ _ => rfl⟩
  | setTimeLimit seconds =>
    have hlimit := hs.setTimeLimit seconds
    simp only [Session.respond]
    generalize s.setTimeLimit seconds = x, s'.setTimeLimit seconds = x' at hlimit
    cases hlimit with
    | refused hcategory => exact ⟨hs, .refused hcategory⟩
    | accepted halike => exact ⟨halike, .accepted rfl⟩
  | solve elapsed =>
    have hstart := hs.startSolve
    simp only [Session.respond]
    generalize s.startSolve = x, s'.startSolve = x' at hstart
    cases hstart with
    | refused hcategory => exact ⟨hs, .refused hcategory⟩
    | accepted halike =>
      obtain ⟨hwaiting, hm⟩ := halike
      dsimp only
      rw [← hs.timeLimit, ← hreply _ _ _ hm]
      obtain ⟨hfinished, hanswer⟩ := hwaiting.finishSolve w.dot hm (w.reply _ s.timeLimit) elapsed
      refine ⟨hfinished, ?_⟩
      rw [hanswer]
      exact .refl fun _ _ => rfl
  | infinity => exact ⟨hs, hs.getInfinity.map fun _ _ => congrArg Answer.number⟩
  | solution =>
    refine ⟨hs, SameOutcome.map ?_ fun _ _ => congrArg Answer.vector⟩
    exact (hs.result "get_column_solution").map (f := Prod.fst) (g := Prod.fst) fun _ _ => congrArg Prod.fst
  | score =>
    refine ⟨hs, SameOutcome.map ?_ fun _ _ => congrArg Answer.number⟩
    exact (hs.result "get_score").map fun _ _ => congrArg Prod.snd

end Session

end Milp
