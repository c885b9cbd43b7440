import Milp.Proofs.Model.Reachable
import Milp.Proofs.Session.Operations
import Milp.Registry.Calls

/-!
# What sessions answer

What a session makes of a request, said once for all proofs about registries.

* `Session.Responded` — everything that a request can come to: `responded_respond`.
* `handle_respond` — a session keeps its handle.
* `Session.WellFormed` — the model of a session is well-formed: `WellFormed.respond`.
-/

namespace Milp.Session

variable {s s' : Session} {m : Model} {cache : RowCache} {w : Outside} {dot : ScalarProduct}

/-! ## Requests -/

/-- **What a request comes to**: the session and the cache afterwards, and the answer. -/
inductive Responded (w : Outside) (s : Session) (cache : RowCache) :
    Request → (Session × RowCache) × Except Error Answer → Prop where
  | edited {e : Edit} {m m' : Model} {cache' : RowCache} {hit : Option Bool} (hm : s.stage = .building m)
      (happly : e.apply m cache = (cache', .ok (m', hit))) :
      Responded w s cache (.edit e) (({ s with stage := .building m' }, cache'), .ok .done)
  | notEdited {e : Edit} {m : Model} {cache' : RowCache} {refusal : Error} (hm : s.stage = .building m)
      (happly : e.apply m cache = (cache', .error refusal)) :
      Responded w s cache (.edit e) ((s, cache'), .error refusal)
  | limited {seconds : Arg} {limit : Option Binary64} {m : Model} (hm : s.stage = .building m)
      (hlimit : normalizeTimeLimit seconds = .ok limit) :
      Responded w s cache (.setTimeLimit seconds) (({ s with timeLimit := limit }, cache), .ok .done)
  | solved {elapsed : Binary64} {m : Model} {answer : Except Error SolveStatus} {s' : Session}
      (hm : s.stage = .building m)
      (hfinished : Finished w.dot { s with stage := .solving m.freeze none, elapsed := elapsed } m.freeze
        (w.reply m.freeze s.timeLimit) (s', answer)) :
      Responded w s cache (.solve elapsed) ((s', cache), answer.map .ended)
  /-- the request is refused, or the session is only read -/
  | unchanged {q : Request} (answer : Except Error Answer) : Responded w s cache q ((s, cache), answer)

theorem responded_respond (w : Outside) (s : Session) (cache : RowCache) (q : Request) :
    Responded w s cache q (s.respond w cache q) := by
  cases q with
  | edit e =>
    have hedited := s.edited cache e
    simp only [respond]
    generalize s.edit cache e = after at hedited ⊢
    cases hedited with
    | notBuilding hbuild => exact .unchanged _
    | refused hm happly => exact .notEdited hm happly
    | accepted hm happly => exact .edited hm happly
  | setTimeLimit seconds =>
    cases hset : s.setTimeLimit seconds with
    | error refusal =>
      simp only [respond, hset]
      exact .unchanged _
    | ok s' =>
      simp only [respond, hset]
      obtain ⟨m, hbuild, hset⟩ := bind_eq_ok_iff.mp hset
      obtain ⟨limit, hlimit, hs'⟩ := bind_eq_ok_iff.mp hset
      cases hs'
      exact .limited (modelToBuild_eq_ok_iff.mp hbuild) hlimit
  | solve elapsed =>
    cases hbuild : s.modelToBuild "solve" with
    | error refusal =>
      have hstart : s.startSolve = .error refusal := by rw [startSolve, hbuild]; rfl
      simp only [respond, hstart]
      exact .unchanged _
    | ok m =>
      have hm := modelToBuild_eq_ok_iff.mp hbuild
      obtain ⟨lines, hstart⟩ := startSolve_of_building hm
      simp only [respond, hstart]
      exact .solved hm (finished w.dot { s with stage := .solving m.freeze none } _ _ elapsed)
  | infinity | solution | score => exact .unchanged _

theorem Finished.handle_eq {r : Reply} {answer : Except Error SolveStatus}
    (h : Finished dot s m r (s', answer)) : s'.handle = s.handle := by
  cases h <;> rfl

/-- Whatever a session is asked, it keeps its handle. -/
theorem handle_respond (w : Outside) (s : Session) (cache : RowCache) (q : Request) :
    (s.respond w cache q).1.1.handle = s.handle := by
  have hresponded := responded_respond w s cache q
  generalize s.respond w cache q = outcome at hresponded ⊢
  cases hresponded with
  | solved _ hfinished => exact hfinished.handle_eq
  | edited | notEdited | limited | unchanged => rfl

/-! ## Well-formed models -/

/-- **The model of a session is well-formed**, as long as there is one. -/
def WellFormed (s : Session) : Prop := ∀ m, s.stage.model? = some m → m.WellFormed

theorem wellFormed_of_model? (hm : m.WellFormed) (h : s.stage.model? = some m) : s.WellFormed := by
  intro m' hm'
  rw [h] at hm'
  cases hm'
  exact hm

theorem wellFormed_of_disposed (h : s.stage = .disposed) : s.WellFormed := by
  intro m hm
  rw [h] at hm
  cases hm

theorem WellFormed.model (hs : s.WellFormed) (hm : s.stage = .building m) : m.WellFormed :=
  hs m (congrArg Stage.model? hm)

theorem wellFormed_create {backend : Backend} {timeLimit columns rowsHint : Arg}
    (h : create backend timeLimit columns rowsHint = .ok s) : s.WellFormed := by
  obtain ⟨infinity, -, h⟩ := bind_eq_ok_iff.mp h
  obtain ⟨m, hm, h⟩ := bind_eq_ok_iff.mp h
  obtain ⟨limit, -, h⟩ := bind_eq_ok_iff.mp h
  cases h
  exact wellFormed_of_model? (Model.wellFormed_create hm) rfl

theorem Finished.wellFormed {r : Reply} {answer : Except Error SolveStatus} (h : Finished dot s m r (s', answer))
    (hm : m.WellFormed) : s'.WellFormed := by
  cases h with
  | late hstage => exact wellFormed_of_disposed hstage
  | solved | failed | misfit | unread => exact wellFormed_of_model? hm rfl

/-- **Whatever a session is asked**, its model stays well-formed and the row cache sound. -/
theorem WellFormed.respond (hs : s.WellFormed) (hcache : cache.Sound) (w : Outside)
    (q : Request) :
    (s.respond w cache q).1.1.WellFormed ∧ (s.respond w cache q).1.2.Sound := by
  have hresponded := responded_respond w s cache q
  generalize s.respond w cache q = outcome at hresponded ⊢
  cases hresponded with
  | edited hm happly =>
    obtain ⟨hsound, hresult⟩ := (hs.model hm).apply hcache _ happly
    exact ⟨wellFormed_of_model? (hresult _ _ rfl) rfl, hsound⟩
  | notEdited hm happly => exact ⟨hs, ((hs.model hm).apply hcache _ happly).1⟩
  | limited => exact ⟨hs, hcache⟩
  | solved hm hfinished => exact ⟨hfinished.wellFormed (hs.model hm).freeze, hcache⟩
  | unchanged => exact ⟨hs, hcache⟩

end Milp.Session
