import Milp.Proofs.Session.Lifecycle

/-!
# How solving ends

A session that solves hands out its model and waits. Solvers may fail, and they may come back with anything. A
session that has not been disposed of in the meantime is settled by every reply that it can read: one whose solution,
if its status comes with one, is an array of numbers. What it cannot read leaves it waiting.

* `Arg.IsArray` — evenly nested lists of what can be read as numbers: `isArray_iff`.
* `Reply.IsReadable` and `Stage.IsSettled` — replies that a session can read, and stages in which solving has ended.
* `Life.Waits` — the solver has the model and has not come back: `Waits.step` and `Waits.run`.
* `solve_settles_iff` — solving, whatever happens while the solver is at work, and its end.
-/

namespace Milp

/-! ## Arrays of numbers -/

namespace Arg

/-- **What can be an entry of an array of numbers**: a missing entry, a flag, a number that is not too large, or a
text that is a numeral. -/
def IsNumeric : Arg → Prop
  | absent | flag _ | float _ => True
  | int n => (Binary64.ofInt n).isFinite = true
  | text s => Numeral.number? s ≠ none
  | list _ | record _ => False

/-- **An argument that stands for an array of numbers**: a single value, or lists that nest evenly and not too deeply,
with numeric entries. -/
def IsArray (a : Arg) : Prop := a.shape? ≠ none ∧ ∀ e ∈ a.entries, e.IsNumeric

theorem isNumeric_iff {a : Arg} : a.IsNumeric ↔ ∃ x, a.toEntry = .ok x := by
  cases a with
  | absent | flag b | float x => exact iff_of_true trivial ⟨_, rfl⟩
  | int n => simp [IsNumeric, toEntry_int_eq_ok_iff]
  | text s => simp [IsNumeric, toEntry_text_eq_ok_iff, Option.ne_none_iff_exists']
  | list items | record fields => exact iff_of_false id nofun

/-- Arrays of numbers are what is read as such. -/
theorem isArray_iff {a : Arg} : a.IsArray ↔ ∃ g, a.numberArray = .ok g := by
  simp only [IsArray, isNumeric_iff, ← exists_mapM_eq_ok_iff, numberArray, array]
  cases a.shape? with
  | none => simp
  | some shape =>
    simp only [bind_eq_ok_iff, ne_eq, reduceCtorEq, not_false_eq_true, true_and]
    constructor
    · rintro ⟨xs, hxs⟩
      exact ⟨⟨shape, xs⟩, xs, hxs, rfl⟩
    · rintro ⟨g, xs, hxs, -⟩
      exact ⟨xs, hxs⟩

end Arg

/-! ## Replies and stages -/

/-- **A reply that a session can read**: a failure, the status `error`, or a solution that is an array of numbers. Its
shape does not matter. -/
def Reply.IsReadable : Reply → Prop
  | outcome status solution _ => status = .error ∨ solution.IsArray
  | failure _ => True

/-- **Solving has ended**, in a solution or a failure, or nothing is left of the session. -/
def Stage.IsSettled : Stage → Prop
  | solved _ _ _ _ | failed _ | disposed => True
  | building _ | solving _ _ => False

/-- The solver comes back. -/
def Event.IsReply : Event → Prop
  | reply _ _ => True
  | _ => False

/-- A reply with the status `error` is the end, whatever else it brings. -/
theorem Session.finishSolve_of_error {s : Session} (dot : ScalarProduct) (hs : s.stage ≠ .disposed) (m : Model)
    {r : Reply} (hr : r.status = .error) (elapsed : Binary64) :
    (s.finishSolve dot m r elapsed).1.stage = .failed m ∧ (s.finishSolve dot m r elapsed).2.2 = .ok .error := by
  cases r with
  | failure text =>
    simp only [finishSolve, readReply]
    cases hstage : s.stage with
    | disposed => exact absurd hstage hs
    | building | solving | solved | failed => exact ⟨rfl, rfl⟩
  | outcome status solution message =>
    obtain rfl : status = .error := hr
    simp only [finishSolve, readReply]
    cases hstage : s.stage with
    | disposed => exact absurd hstage hs
    | building | solving | solved | failed => exact ⟨rfl, rfl⟩

/-! ## Waiting for the solver -/

namespace Life

variable {l : Life} {m : Model} {r : Reply} {e : Event}

/-- **The solver is at work** on the frozen model `m`. The session waits for it, or has been disposed of. -/
structure Waits (l : Life) (m : Model) : Prop where
  atWork : l.atWork = some m
  frozen : m.frozen = true
  stage : l.session.stage = .solving m none ∨ l.session.stage = .disposed

/-- Solving begins with waiting. -/
theorem waits_of_solve (hm : l.session.stage = .building m) :
    (l.step .solve).2 = .ok .done ∧ (l.step .solve).1.Waits m.freeze := by
  obtain ⟨lines, hstart⟩ := Session.startSolve_of_building hm
  simp only [step, hstart]
  exact ⟨trivial, rfl, rfl, .inl rfl⟩

/-- Outside of building the solver is not called, and only a reply ends its work. -/
theorem atWork_step (hstage : ∀ m, l.session.stage ≠ .building m) (he : ¬ e.IsReply) :
    (l.step e).1.atWork = l.atWork := by
  cases e with
  | reply r elapsed => exact absurd trivial he
  | solve =>
    obtain ⟨refusal, hbuild, -⟩ := Session.modelToBuild_of_not_building hstage "solve"
    simp only [step, Session.startSolve, hbuild]
    rfl
  | setTimeLimit seconds | freezeModel | editModel e =>
    simp only [step]
    split <;> rfl
  | edit | infinity | solution | score | dispose | shareCache => rfl

theorem Waits.not_building (h : l.Waits m) (m' : Model) : l.session.stage ≠ .building m' := by
  rcases h.stage with hstage | hstage <;> rw [hstage] <;> nofun

/-- **While the solver is at work** nothing but disposal changes what it will come back to. -/
theorem Waits.step (h : l.Waits m) (he : ¬ e.IsReply) : (l.step e).1.Waits m := by
  have hwork : (l.step e).1.atWork = some m := (atWork_step h.not_building he).trans h.atWork
  refine ⟨hwork, h.frozen, ?_⟩
  have hnext := l.next_step e
  generalize (l.step e).1 = l' at hnext hwork
  cases hnext with
  | shared cache => exact h.stage
  | limited hlimit => exact h.stage
  | disposed => exact .inr rfl
  | started hm => exact absurd hm (h.not_building _)
  | replied => cases hwork
  | @changed m₁ m' hm hfrozen cache =>
    -- there is a model only if the session waits, and the model is frozen
    rcases h.stage with hstage | hstage
    · rw [hstage] at hm
      cases hm
      left
      show l.session.stage.withModel m' = _
      rw [hstage, hfrozen h.frozen]
      rfl
    · rw [hstage] at hm
      cases hm

/-- **The session waits as long as the solver is at work**, whatever is done with it. -/
theorem Waits.run {during : List Event} (h : l.Waits m) (hduring : ∀ e ∈ during, ¬ e.IsReply) :
    (l.run during).Waits m := by
  induction during generalizing l with
  | nil => exact h
  | cons e rest ih =>
    obtain ⟨he, hrest⟩ := List.forall_mem_cons.mp hduring
    exact ih (h.step he) hrest

/-! ## The end -/

/-- Hearing a reply is the end of solving. -/
theorem Waits.step_reply (h : l.Waits m) (r : Reply) (elapsed : Binary64) :
    (l.step (.reply r elapsed)).1.session = (l.session.finishSolve l.dot m r elapsed).1 ∧
      (l.step (.reply r elapsed)).2 = (l.session.finishSolve l.dot m r elapsed).2.2.map .ended := by
  simp only [Life.step, h.atWork, and_self]

/-- **A reply that can be read settles the session**, and a session that has been disposed of is settled. -/
theorem Waits.settled (h : l.Waits m) (hr : l.session.stage = .disposed ∨ r.IsReadable) (elapsed : Binary64) :
    (∃ status, (l.step (.reply r elapsed)).2 = .ok (.ended status)) ∧
      (l.step (.reply r elapsed)).1.session.stage.IsSettled := by
  obtain ⟨hsession, hanswer⟩ := h.step_reply r elapsed
  rw [hsession, hanswer]
  by_cases hend : l.session.stage ≠ .disposed ∧ r.status = .error
  · obtain ⟨hstage, hresult⟩ := Session.finishSolve_of_error l.dot hend.1 m hend.2 elapsed
    rw [hstage, hresult]
    exact ⟨⟨.error, rfl⟩, trivial⟩
  · have hfinished := Session.finished l.dot l.session m r elapsed
    generalize (l.session.finishSolve l.dot m r elapsed).1 = s,
      (l.session.finishSolve l.dot m r elapsed).2.2 = answer at hfinished ⊢
    cases hfinished with
    | late hdisposed =>
      have hdisposed : l.session.stage = .disposed := hdisposed
      refine ⟨⟨r.status, rfl⟩, ?_⟩
      show l.session.stage.IsSettled
      rw [hdisposed]
      trivial
    | solved => exact ⟨⟨_, rfl⟩, trivial⟩
    | failed | misfit => exact ⟨⟨.error, rfl⟩, trivial⟩
    | unread halive hreply hread =>
      subst hreply
      rcases hr with hdisposed | hstatus | hsolution
      · exact absurd hdisposed halive
      · exact absurd ⟨halive, hstatus⟩ hend
      · obtain ⟨g, hg⟩ := Arg.isArray_iff.mp hsolution
        rw [hread] at hg
        cases hg

/-- **A reply that cannot be read** is refused, and the session waits for ever: the solver is done. -/
theorem Waits.unread (h : l.Waits m) (hr : ¬ (l.session.stage = .disposed ∨ r.IsReadable)) (elapsed : Binary64) :
    (∃ refusal, (l.step (.reply r elapsed)).2 = .error refusal) ∧
      (l.step (.reply r elapsed)).1.session.stage = .solving m (some r.status) := by
  obtain ⟨hsession, hanswer⟩ := h.step_reply r elapsed
  rw [hsession, hanswer]
  obtain ⟨halive, hunreadable⟩ := not_or.mp hr
  have hfinished := Session.finished l.dot l.session m r elapsed
  generalize (l.session.finishSolve l.dot m r elapsed).1 = s,
    (l.session.finishSolve l.dot m r elapsed).2.2 = answer at hfinished ⊢
  cases r with
  | failure text => exact absurd trivial hunreadable
  | outcome status solution message =>
    obtain ⟨hstatus, hsolution⟩ := not_or.mp hunreadable
    rw [Arg.isArray_iff] at hsolution
    cases hfinished with
    | late hdisposed => exact absurd hdisposed halive
    | failed _ hr => exact absurd hr hstatus
    | solved _ hreply _ hread | misfit _ hreply hread =>
      cases hreply
      exact absurd ⟨_, hread⟩ hsolution
    | unread _ hreply hread =>
      cases hreply
      exact ⟨⟨_, rfl⟩, rfl⟩

/-- **A session is solved by a vector with an entry for every column**, and by nothing else. -/
theorem Waits.solved_iff (h : l.Waits m) {elapsed : Binary64} {m' : Model} {status : SolveStatus}
    {xs : List Binary64} {score : Binary64} :
    (l.step (.reply r elapsed)).1.session.stage = .solved m' status xs score ↔
      l.session.stage ≠ .disposed ∧ m' = m ∧ score = l.dot m.objective xs ∧ status ≠ .error ∧
        ∃ solution message, r = .outcome status solution message ∧
          solution.numberArray = .ok ⟨[m.columns], xs⟩ := by
  obtain ⟨hsession, -⟩ := h.step_reply r elapsed
  rw [hsession]
  have hfinished := Session.finished l.dot l.session m r elapsed
  generalize (l.session.finishSolve l.dot m r elapsed).1 = s,
    (l.session.finishSolve l.dot m r elapsed).2.2 = answer at hfinished ⊢
  constructor
  · intro hsolved
    cases hfinished with
    | late hdisposed => cases hdisposed.symm.trans hsolved
    | failed | misfit | unread => cases hsolved
    | solved halive hreply hstatus hread =>
      cases hsolved
      exact ⟨halive, rfl, rfl, hstatus, _, _, hreply, hread⟩
  · rintro ⟨halive, rfl, rfl, hstatus, solution, message, rfl, hread⟩
    cases hfinished with
    | late hdisposed => exact absurd hdisposed halive
    | failed _ herror => exact absurd herror hstatus
    | solved _ hreply _ hread' =>
      cases hreply
      obtain ⟨-, rfl⟩ := Grid.mk.inj (Except.ok.inj (hread.symm.trans hread'))
      rfl
    | misfit _ hreply hread' hshape =>
      cases hreply
      obtain rfl := Except.ok.inj (hread.symm.trans hread')
      exact absurd rfl hshape
    | unread _ hreply hread' =>
      cases hreply
      cases hread.symm.trans hread'

/-- **How solving ends.** Solving begins in every session that is being built. Whatever is done with the session while
the solver is at work, also by the solver's hand: when the solver comes back, the answer is a status, and the session
solved, failed or disposed of, if and only if it has been disposed of or the reply can be read. If not, the reply is
refused, and the session keeps waiting. It is solved by a solution that is a vector of numbers, one for every column,
and by no other. -/
theorem solve_settles_iff (hm : l.session.stage = .building m) {during : List Event}
    (hduring : ∀ e ∈ during, ¬ e.IsReply) (r : Reply) (elapsed : Binary64) :
    let waiting := (l.step .solve).1.run during
    let back := waiting.step (.reply r elapsed)
    (l.step .solve).2 = .ok .done ∧
      ((∃ status, back.2 = .ok (.ended status)) ∧ back.1.session.stage.IsSettled ↔
        waiting.session.stage = .disposed ∨ r.IsReadable) ∧
      (¬ (waiting.session.stage = .disposed ∨ r.IsReadable) →
        (∃ refusal, back.2 = .error refusal) ∧ back.1.session.stage = .solving m.freeze (some r.status)) ∧
      ∀ m' status xs score, back.1.session.stage = .solved m' status xs score ↔
        waiting.session.stage ≠ .disposed ∧ m' = m.freeze ∧ score = l.dot m.objective xs ∧
          status ≠ .error ∧ xs.length = m.columns ∧ ∃ solution message, r = .outcome status solution message ∧
            solution.numberArray = .ok (.vector xs) := by
  intro waiting back
  obtain ⟨hdone, hbegun⟩ := waits_of_solve hm
  have hwaits : waiting.Waits m.freeze := hbegun.run hduring
  have hdot : waiting.dot = l.dot := (dot_run _ during).trans (l.next_step .solve).dot_eq
  have hunread : ¬ (waiting.session.stage = .disposed ∨ r.IsReadable) →
      (∃ refusal, back.2 = .error refusal) ∧ back.1.session.stage = .solving m.freeze (some r.status) :=
    fun hr => hwaits.unread hr elapsed
  refine ⟨hdone, ⟨fun hend => ?_, fun hr => hwaits.settled hr elapsed⟩, hunread, ?_⟩
  · by_contra hr
    have hsettled := hend.2
    rw [(hunread hr).2] at hsettled
    exact hsettled
  · intro m' status xs score
    refine hwaits.solved_iff.trans ?_
    rw [hdot]
    constructor
    · rintro ⟨halive, hmodel, hscore, hstatus, solution, message, hreply, hread⟩
      have hlength : xs.length = m.columns := Arg.length_vector hread
      have hvector : solution.numberArray = .ok (.vector xs) := by
        rw [hread, Grid.vector, hlength]
        rfl
      exact ⟨halive, hmodel, hscore, hstatus, hlength, solution, message, hreply, hvector⟩
    · rintro ⟨halive, hmodel, hscore, hstatus, hlength, solution, message, hreply, hread⟩
      rw [Grid.vector, hlength] at hread
      exact ⟨halive, hmodel, hscore, hstatus, solution, message, hreply, hread⟩

/-- A session with one column, whose model is frozen once more while the solver is at work. A solution that is missing
is an array of another shape, and settles it. -/
theorem solve_settles_of_absent :
    let s : Session := ⟨none, "plain", Binary64.infinity, none, Binary64.zero,
      .building (Model.blank 1 0 Binary64.infinity)⟩
    let waiting := ((start Binary64.dot s (RowCache.empty .digest)).step .solve).1.run [.freezeModel]
    let r : Reply := .outcome .optimal .absent ""
    let back := waiting.step (.reply r Binary64.one)
    r.IsReadable ∧ (∃ status, back.2 = .ok (.ended status)) ∧ back.1.session.stage.IsSettled := by
  intro s waiting r back
  have hr : r.IsReadable := .inr ⟨nofun, by simp [Arg.entries, Arg.IsNumeric]⟩
  have hduring : ∀ e ∈ [Event.freezeModel], ¬ e.IsReply := by simp [Event.IsReply]
  obtain ⟨-, hsettles, -⟩ :=
    solve_settles_iff (l := start Binary64.dot s (RowCache.empty .digest)) rfl hduring r Binary64.one
  exact ⟨hr, hsettles.mpr (.inr hr)⟩

/-- **A solution that cannot be read leaves a session waiting.** One column, and a solver that comes back with a text
that is no numeral: the reply is refused, the session keeps waiting, and no other reply is heard. -/
theorem text_solution_leaves_waiting :
    let m := Model.blank 1 0 Binary64.infinity
    let s : Session := ⟨none, "plain", Binary64.infinity, none, Binary64.zero, .building m⟩
    let waiting := ((start Binary64.dot s (RowCache.empty .digest)).step .solve).1
    let back := waiting.step (.reply (.outcome .optimal (.list [.text "a"]) "") Binary64.one)
    back.2 = .error (.fault .unreadable) ∧ back.1.session.stage = .solving m.freeze (some .optimal) ∧
      ¬ back.1.session.stage.IsSettled ∧
      ∀ r elapsed, (back.1.step (.reply r elapsed)).1.session = back.1.session := by
  intro m s waiting back
  have hstage : back.1.session.stage = .solving m.freeze (some .optimal) := by decide +kernel
  refine ⟨rfl, hstage, ?_, fun r elapsed => rfl⟩
  rw [hstage]
  exact id

end Life

end Milp
