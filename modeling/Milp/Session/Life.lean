import Milp.Model.Workspace
import Milp.Session.Solving

/-!
# The life of a session

A session among those who use it, as a run of events. The solver belongs to the world outside: a session
that solves hands it the model, and what it comes back with is an event of its own. Anything may happen
between the two, also by the solver's hand: it may ask the session, change or freeze the model that it was
given, or dispose of the session.

* `Event` and `Answer` — what can be done with a session, and what comes of it.
* `Life` — a session, the row cache it shares with others, and what its solver has been given.
* `Life.step` and `Life.run` — one event, and events in a row.
* `Session.Reachable` — a session that some events have led to.
-/

namespace Milp

/-- The stage with another model, where it has one. -/
def Stage.withModel (m : Model) : Stage → Stage
  | building _ => building m
  | solving _ heard => solving m heard
  | solved _ status solution score => solved m status solution score
  | failed _ => failed m
  | disposed => disposed

/-- **What can be done with a session.** -/
inductive Event where
  | edit (e : Edit)
  | setTimeLimit (seconds : Arg)
  | solve
  /-- the solver comes back, `elapsed` seconds after it was called -/
  | reply (r : Reply) (elapsed : Binary64)
  | infinity
  | solution
  | score
  | dispose
  /-- an edit of the session's model, not through the session -/
  | editModel (e : Edit)
  /-- the session's model is frozen, not through the session -/
  | freezeModel
  /-- others have used the row cache -/
  | shareCache (cache : RowCache)

/-- **What comes of it**, if it is not refused. -/
inductive Answer where
  | done
  | edited (hit : Option Bool)
  | ended (status : SolveStatus)
  | number (x : Binary64)
  | vector (xs : List Binary64)

/-- **A session in its surroundings.** `dot` takes its scalar products; `given` has what the solver was called with,
call by call; `atWork` is the model that it has not come back with yet. -/
structure Life where
  dot : ScalarProduct
  session : Session
  cache : RowCache
  given : List (Model × Option Binary64)
  atWork : Option Model

namespace Life

/-- A session that its solver has not heard of. -/
def start (dot : ScalarProduct) (s : Session) (cache : RowCache) : Life := ⟨dot, s, cache, [], none⟩

/-- The life with the session's model changed. -/
def withModel (l : Life) (m : Model) : Life :=
  { l with session := { l.session with stage := l.session.stage.withModel m } }

/-- **One event.** A reply that nobody waits for is not heard. -/
def step (l : Life) : Event → Life × Except Error Answer
  | .edit e =>
    let ((s, cache), answer) := l.session.edit l.cache e
    ({ l with session := s, cache := cache }, answer.map .edited)
  | .setTimeLimit seconds =>
    match l.session.setTimeLimit seconds with
    | .error refusal => (l, .error refusal)
    | .ok s => ({ l with session := s }, .ok .done)
  | .solve =>
    match l.session.startSolve with
    | .error refusal => (l, .error refusal)
    | .ok (s, m, _) =>
      ({ l with session := s, given := l.given ++ [(m, s.timeLimit)], atWork := some m }, .ok .done)
  | .reply r elapsed =>
    match l.atWork with
    | none => (l, .ok .done)
    | some m =>
      let (s, _, result) := l.session.finishSolve l.dot m r elapsed
      ({ l with session := s, atWork := none }, result.map .ended)
  | .infinity => (l, l.session.getInfinity.map .number)
  | .solution => (l, l.session.solution.map .vector)
  | .score => (l, l.session.score.map .number)
  | .dispose => ({ l with session := l.session.dispose.1 }, .ok .done)
  | .editModel e =>
    match l.session.model with
    | .error refusal => (l, .error refusal)
    | .ok m =>
      let (b, answer) := e.perform ⟨m, l.cache⟩
      ({ l.withModel b.model with cache := b.cache }, answer.map .edited)
  | .freezeModel =>
    match l.session.model with
    | .error refusal => (l, .error refusal)
    | .ok m => (l.withModel m.freeze, .ok .done)
  | .shareCache cache => ({ l with cache := cache }, .ok .done)

/-- **The life after events in a row.** -/
def run (l : Life) (events : List Event) : Life := events.foldl (fun l e => (l.step e).1) l

@[simp] theorem run_nil (l : Life) : l.run [] = l := rfl

@[simp] theorem run_cons (l : Life) (e : Event) (rest : List Event) :
    l.run (e :: rest) = (l.step e).1.run rest := rfl

end Life

/-- **A reachable row cache**: that of a workspace after any calls. -/
def RowCache.Reachable (cache : RowCache) : Prop :=
  ∃ (signing : Signing) (calls : List Workspace.Call), cache = ((Workspace.empty signing).run calls).cache

/-- **A reachable session** of a solver: it has been created, with or without a handle, and anything has been done
with it since, while others used its row cache, in whatever order scalar products are added up. -/
def Session.Reachable (backend : Backend) (s : Session) : Prop :=
  ∃ dot timeLimit columns rowsHint created handle cache events,
    Session.create backend timeLimit columns rowsHint = .ok created ∧ RowCache.Reachable cache ∧
      (∀ shared, Event.shareCache shared ∈ events → RowCache.Reachable shared) ∧
      s = ((Life.start dot { created with handle := handle } cache).run events).session

end Milp
