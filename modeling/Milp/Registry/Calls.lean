import Milp.Registry
import Milp.Session.Life

/-!
# Calls on a registry

A registry among those who use it, as a run of calls. Sessions are asked by their handles; what the solver
comes back with belongs to the world outside, and so does the time that it takes.

* `Request` and `Session.respond` — what can be asked of a session, and what it does about it.
* `Registry.Call` and `Registry.call` — one call on the registry, with its outcome.
* `Registry.run` and `Registry.outcomes` — calls in a row.
-/

namespace Milp

/-- **What can be asked of a session** by its handle. -/
inductive Request where
  | edit (e : Edit)
  | setTimeLimit (seconds : Arg)
  /-- the solver comes back `elapsed` seconds after it was called -/
  | solve (elapsed : Binary64)
  | infinity
  | solution
  | score

/-- **The world outside**: what sessions know of their solver, the time limit that they begin with, what the
solver comes back with for a model and a time limit, and how scalar products are taken. -/
structure Outside where
  backend : Backend
  timeLimit : Arg
  reply : Model → Option Binary64 → Reply
  dot : ScalarProduct

/-- A world in which an engine solves. -/
def Outside.ofEngine (backend : Backend) (timeLimit : Arg) (dot : ScalarProduct) (engine : Engine) (config : Config)
    (clock : Clock) : Outside where
  backend := backend
  timeLimit := timeLimit
  dot := dot
  reply := fun m limit => .ofResult (m.solve engine config (limitArg limit) clock 0).result

namespace Session

/-- **Does what is asked.** A session and the row cache that it uses become those of the answer; whether the
cache had a row is not told. -/
def respond (w : Outside) (s : Session) (cache : RowCache) :
    Request → (Session × RowCache) × Except Error Answer
  | .edit e =>
    let (kept, answer) := s.edit cache e
    (kept, answer.map fun _ => .done)
  | .setTimeLimit seconds =>
    match s.setTimeLimit seconds with
    | .error refusal => ((s, cache), .error refusal)
    | .ok s' => ((s', cache), .ok .done)
  | .solve elapsed =>
    match s.startSolve with
    | .error refusal => ((s, cache), .error refusal)
    | .ok (waiting, m, _) =>
      let (s', _, result) := waiting.finishSolve w.dot m (w.reply m s.timeLimit) elapsed
      ((s', cache), result.map .ended)
  | .infinity => ((s, cache), s.getInfinity.map .number)
  | .solution => ((s, cache), s.solution.map .vector)
  | .score => ((s, cache), s.score.map .number)

end Session

namespace Registry

/-- **A call** on a registry. Sessions are named by arguments that stand for their handles. -/
inductive Call where
  | construct (columns rowsHint : Arg)
  | ask (handle : Arg) (q : Request)
  | dispose (handle : Arg)
  | disposeAll
  | get (handle : Arg)
  | contains (handle : Arg)
  | handles
  | size

/-- **What comes of a call**, if it is not refused. -/
inductive Outcome where
  | made (handle : Nat)
  | answered (a : Answer)
  | done
  | session (s : Session)
  | contained (inUse : Bool)
  | listed (handles : List Nat)
  | counted (n : Nat)

/-- **Carries out a call.** -/
def call (w : Outside) (r : Registry) : Call → Registry × Except Error Outcome
  | .construct columns rowsHint =>
    match r.construct w.backend w.timeLimit columns rowsHint with
    | .error e => (r, .error e)
    | .ok (r', handle, _) => (r', .ok (.made handle))
  | .ask a q =>
    match r.lookup a with
    | .error e => (r, .error e)
    | .ok handle =>
      match r.session? handle with
      | none => (r, .error (r.refusal a))
      | some s =>
        let ((s', cache), answer) := s.respond w r.cache q
        ({ r.update handle s' with cache := cache }, answer.map .answered)
  | .dispose a =>
    match r.dispose a with
    | .error e => (r, .error e)
    | .ok (r', _) => (r', .ok .done)
  | .disposeAll => (r.disposeAll.1, .ok .done)
  | .get a => (r, (r.get a).map .session)
  | .contains a => (r, (r.contains a).map .contained)
  | .handles => (r, .ok (.listed r.handles))
  | .size => (r, .ok (.counted r.size))

variable {w : Outside}

/-- **The registry after calls in a row.** -/
def run (w : Outside) (r : Registry) (calls : List Call) : Registry :=
  calls.foldl (fun r c => (r.call w c).1) r

/-- What comes of calls in a row. -/
def outcomes (w : Outside) (r : Registry) : List Call → List (Except Error Outcome)
  | [] => []
  | c :: rest => (r.call w c).2 :: (r.call w c).1.outcomes w rest

@[simp] theorem run_nil (r : Registry) : r.run w [] = r := rfl

@[simp] theorem run_cons (r : Registry) (c : Call) (rest : List Call) :
    r.run w (c :: rest) = (r.call w c).1.run w rest := rfl

theorem run_append (r : Registry) (calls later : List Call) :
    r.run w (calls ++ later) = (r.run w calls).run w later :=
  List.foldl_append

theorem outcomes_append (r : Registry) (calls later : List Call) :
    r.outcomes w (calls ++ later) = r.outcomes w calls ++ (r.run w calls).outcomes w later := by
  induction calls generalizing r with
  | nil => rfl
  | cons c rest ih => exact congrArg _ (ih _)

end Registry

end Milp
