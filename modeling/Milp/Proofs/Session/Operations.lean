import Milp.Proofs.Arg.Lists
import Milp.Proofs.Arg.Vectors
import Milp.Proofs.Binary64.Order
import Milp.Proofs.Model.Atomic
import Milp.Session.Solving

/-!
# What sessions do

What the operations of a session come to, said once for all proofs about sessions. Solving is the one that has
much to say: a solver may come back with anything, and to a session that is no longer there.

* `IsTimeLimit` — what a time limit is after it has been checked: `isTimeLimit_of_normalize`.
* `Session.modelToBuild_eq_ok_iff` and `modelToBuild_of_not_building` — the check of the stage.
* `Session.Edited` — what an edit comes to: `edited`; `startSolve_of_building` — the beginning of solving.
* `Reply.IsVector` — replies that can be read; all results of solvers can.
* `Session.Finished` — everything that the end of solving can come to: `finished`.
-/

namespace Milp

/-! ## Time limits -/

/-- **A time limit is a positive finite number**, if there is one. -/
def IsTimeLimit (limit : Option Binary64) : Prop :=
  ∀ x, limit = some x → x.isFinite = true ∧ Binary64.zero.lt x = true

theorem isTimeLimit_of_normalize {seconds : Arg} {limit : Option Binary64}
    (h : normalizeTimeLimit seconds = .ok limit) : IsTimeLimit limit := by
  intro x hlimit
  subst hlimit
  unfold normalizeTimeLimit at h
  split at h
  · cases h
  split at h
  · cases h
  · cases h
  rename_i y hread
  split at h
  · cases h
  rename_i hpositive
  split at h
  · cases h
  rename_i hfinite
  cases h
  obtain ⟨hnan, hle⟩ : x.isNaN = false ∧ ¬ x.le Binary64.zero = true := by simpa using hpositive
  constructor
  · cases x with
    | nan => cases hnan
    | infinite s => exact absurd rfl hfinite
    | finite s a => rfl
  · refine Decidable.byContradiction fun hlt => ?_
    exact hle ((Binary64.not_lt_iff rfl hnan).mp hlt)

/-! ## Checks of the stage -/

namespace Session

/-- The model of a session is that of its stage. -/
theorem model_eq_ok_iff {s : Session} {m : Model} : s.model = .ok m ↔ s.stage.model? = some m := by
  unfold model
  cases s.stage.model? <;> simp

/-- Only a session that is being built has a model to build. -/
theorem modelToBuild_eq_ok_iff {s : Session} {m : Model} {operation : String} :
    s.modelToBuild operation = .ok m ↔ s.stage = .building m := by
  unfold modelToBuild
  cases s.stage <;> simp

/-- Outside of building there is no model to build. -/
theorem modelToBuild_of_not_building {s : Session} (h : ∀ m, s.stage ≠ .building m) (operation : String) :
    ∃ refusal, s.modelToBuild operation = .error refusal ∧ refusal.isInvalidState = true := by
  unfold modelToBuild
  split
  · rename_i m hstage
    exact absurd hstage (h m)
  · exact ⟨_, rfl, rfl⟩
  · exact ⟨_, rfl, rfl⟩

section Edit

variable {s : Session} {m : Model} {cache cache' : RowCache} {e : Edit}

/-- A taken edit changes the model of the session. -/
theorem edit_of_apply (hs : s.stage = .building m) {m' : Model} {hit : Option Bool}
    (h : e.apply m cache = (cache', .ok (m', hit))) :
    s.edit cache e = (({ s with stage := .building m' }, cache'), .ok hit) := by
  simp only [edit, modelToBuild_eq_ok_iff.mpr hs, e.perform_eq, h]
  rfl

/-- A refused edit changes nothing in the session. -/
theorem edit_of_refused (hs : s.stage = .building m) {refusal : Error}
    (h : e.apply m cache = (cache', .error refusal)) : s.edit cache e = ((s, cache'), .error refusal) := by
  simp only [edit, modelToBuild_eq_ok_iff.mpr hs, e.perform_eq, h, Operation.benchAfter]
  -- the stage that is put back is the one that there was
  rw [← hs]

end Edit

/-- **What a session's edit comes to**: the session and the cache afterwards, and the answer. -/
inductive Edited (s : Session) (cache : RowCache) (e : Edit) :
    (Session × RowCache) × Except Error (Option Bool) → Prop where
  | notBuilding {refusal : Error} (hbuild : s.modelToBuild e.name = .error refusal) :
      Edited s cache e ((s, cache), .error refusal)
  /-- the model refuses the edit, and is what it was -/
  | refused {m : Model} {cache' : RowCache} {refusal : Error} (hm : s.stage = .building m)
      (happly : e.apply m cache = (cache', .error refusal)) : Edited s cache e ((s, cache'), .error refusal)
  | accepted {m m' : Model} {cache' : RowCache} {hit : Option Bool} (hm : s.stage = .building m)
      (happly : e.apply m cache = (cache', .ok (m', hit))) :
      Edited s cache e (({ s with stage := .building m' }, cache'), .ok hit)

theorem edited (s : Session) (cache : RowCache) (e : Edit) : Edited s cache e (s.edit cache e) := by
  cases hbuild : s.modelToBuild e.name with
  | error refusal =>
    simp only [edit, hbuild]
    exact .notBuilding hbuild
  | ok m =>
    have hm := modelToBuild_eq_ok_iff.mp hbuild
    cases happly : e.apply m cache with
    | mk cache' result =>
      cases result with
      | error refusal =>
        rw [edit_of_refused hm happly]
        exact .refused hm happly
      | ok answer =>
        rw [edit_of_apply hm happly]
        exact .accepted hm happly

/-- Solving begins on the model that has been built. -/
theorem startSolve_of_building {s : Session} {m : Model} (hm : s.stage = .building m) :
    ∃ lines, s.startSolve = .ok ({ s with stage := .solving m.freeze none }, m.freeze, lines) := by
  rw [startSolve, modelToBuild_eq_ok_iff.mpr hm]
  exact ⟨_, rfl⟩

end Session

/-! ## The end of solving -/

namespace Reply

/-- The status that a reply brings; a failure is an error. -/
def status : Reply → SolveStatus
  | outcome status _ _ => status
  | failure _ => .error

/-- The solution of a reply, if it has one, is a vector of numbers. -/
def IsVector : Reply → Prop
  | outcome _ solution _ => ∃ xs, solution = Arg.ofFloats xs
  | failure _ => True

theorem isVector_ofResult (result : Except Error Outcome) : (ofResult result).IsVector := by
  cases result with
  | error e => trivial
  | ok o => exact ⟨o.solution, rfl⟩

end Reply

namespace Session

/-- **What the end of solving comes to** when the model `m` was handed out and `r` has come back: the session
afterwards, and the answer. -/
inductive Finished (dot : ScalarProduct) (s : Session) (m : Model) (r : Reply) :
    Session × Except Error SolveStatus → Prop where
  /-- the session has been disposed of in the meantime -/
  | late (h : s.stage = .disposed) : Finished dot s m r (s, .ok r.status)
  | solved (h : s.stage ≠ .disposed) {status : SolveStatus} {solution : Arg} {message : String}
      {xs : List Binary64} (hr : r = .outcome status solution message) (hstatus : status ≠ .error)
      (hread : solution.numberArray = .ok ⟨[m.columns], xs⟩) :
      Finished dot s m r ({ s with stage := .solved m status xs (dot m.objective xs) }, .ok status)
  | failed (h : s.stage ≠ .disposed) (hr : r.status = .error) :
      Finished dot s m r ({ s with stage := .failed m }, .ok .error)
  /-- the solution has not as many entries as there are columns, or another shape altogether -/
  | misfit (h : s.stage ≠ .disposed) {status : SolveStatus} {solution : Arg} {message : String}
      {grid : Grid Binary64} (hr : r = .outcome status solution message)
      (hread : solution.numberArray = .ok grid) (hshape : grid.shape ≠ [m.columns]) :
      Finished dot s m r ({ s with stage := .failed m }, .ok .error)
  /-- the solution is no array of numbers -/
  | unread (h : s.stage ≠ .disposed) {status : SolveStatus} {solution : Arg} {message : String}
      {refusal : Error} (hr : r = .outcome status solution message)
      (hread : solution.numberArray = .error refusal) :
      Finished dot s m r ({ s with stage := .solving m (some status) }, .error refusal)

theorem finished_takeSolution (dot : ScalarProduct) {s : Session} (h : s.stage ≠ .disposed) (m : Model)
    {status : SolveStatus} (hstatus : status ≠ .error) (solution : Arg) (message : String) :
    Finished dot s m (.outcome status solution message)
      ((s.takeSolution dot m status solution).1, (s.takeSolution dot m status solution).2.2) := by
  unfold takeSolution
  split
  · rename_i refusal hread
    exact .unread h rfl hread
  · rename_i shape xs hread
    split
    · rename_i hshape
      subst hshape
      exact .solved h rfl hstatus hread
    · rename_i hshape
      exact .misfit h rfl hread hshape

theorem finished (dot : ScalarProduct) (s : Session) (m : Model) (r : Reply) (elapsed : Binary64) :
    Finished dot { s with elapsed := elapsed } m r
      ((s.finishSolve dot m r elapsed).1, (s.finishSolve dot m r elapsed).2.2) := by
  cases r with
  | failure text =>
    simp only [finishSolve, readReply]
    split
    · rename_i hdisposed
      exact .late (s := { s with elapsed := elapsed }) hdisposed
    · rename_i halive
      exact .failed (s := { s with elapsed := elapsed }) halive rfl
  | outcome status solution message =>
    have hreply : s.readReply m (.outcome status solution message) = (status, solution, message, []) := rfl
    unfold finishSolve
    generalize s.readReply m (.outcome status solution message) = given at hreply ⊢
    subst hreply
    dsimp only
    split
    · rename_i hdisposed
      exact .late (s := { s with elapsed := elapsed }) hdisposed
    · rename_i halive
      split
      · rename_i hsolution
        exact finished_takeSolution dot (s := { s with elapsed := elapsed }) halive m
          (of_decide_eq_true hsolution) solution message
      · rename_i herror
        obtain rfl : status = .error := by simpa [hasSolution] using herror
        exact .failed (s := { s with elapsed := elapsed }) halive rfl

/-- The end of solving leaves the time limit alone. -/
theorem Finished.timeLimit_eq {dot : ScalarProduct} {s s' : Session} {m : Model} {r : Reply}
    {answer : Except Error SolveStatus} (h : Finished dot s m r (s', answer)) : s'.timeLimit = s.timeLimit := by
  cases h <;> rfl

end Session

end Milp
