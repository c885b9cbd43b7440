import Milp.Decimal.Styled
import Milp.Session.Basic

/-!
# Solving in a session

Solving has a beginning and an end, with the solver's work between them. The beginning freezes the
model and hands it out; the end takes the solver's `Reply`. Whatever happens to the session in the
meantime, in particular its disposal, is respected by the end.

* A solver that fails does not fail the session's caller: the outcome is the status `error`.
* A reply with a solution of the wrong shape counts as an error, too.
* `Session.solve` puts beginning and end around an engine.
-/

namespace Milp

/-- **What comes back from a solver**: an outcome, whose solution is not yet known to be a vector, or a
failure in its own words. -/
inductive Reply where
  | outcome (status : SolveStatus) (solution : Arg) (message : String)
  | failure (text : String)

/-- A solver's result as a reply. -/
def Reply.ofResult : Except Error Outcome → Reply
  | .ok o => .outcome o.status (Arg.ofFloats o.solution) o.message
  | .error e => .failure e.message

namespace Session

/-- A line of the session's log. -/
def record (s : Session) (level : Log.Level) (rest : String) : Log.Record :=
  ⟨level, logger, .text s!"Session {handleText s.handle}{rest}"⟩

/-- **The beginning.** The model is frozen; the session waits for the solver. -/
def startSolve (s : Session) : Except Error (Session × Model × List Log.Record) := do
  let m ← s.modelToBuild "solve"
  let m := m.freeze
  let line := s.record Log.debug (s!" solving: {m.columns} columns, {m.rows.length} rows, " ++
    s!"time limit {(limitArg s.timeLimit).shown}")
  return ({ s with stage := .solving m none }, m, [line])

/-- Whether a status comes with a solution. -/
def hasSolution (status : SolveStatus) : Bool := decide (status ≠ .error)

/-- The session after a solution has come back: solved if the solution has an entry for every column,
failed if it has another shape, still waiting if it is no vector of numbers at all. Its value is the scalar product
with the objective. -/
def takeSolution (s : Session) (dot : ScalarProduct) (m : Model) (status : SolveStatus) (solution : Arg) :
    Session × List Log.Record × Except Error SolveStatus :=
  match solution.numberArray with
  | .error e => ({ s with stage := .solving m (some status) }, [], .error e)
  | .ok ⟨shape, xs⟩ =>
    if shape = [m.columns] then
      let score := dot m.objective xs
      ({ s with stage := .solved m status xs score },
        [s.record Log.info (s!": {status.name}, score={score.significantText 6}" ++
          s!" in {s.elapsed.millisText}s")],
        .ok status)
    else
      ({ s with stage := .failed m },
        [s.record Log.error (s!": backend returned {Text.shape shape} values" ++
          s!" for {m.columns} columns")],
        .ok .error)

/-- A reply read as a status, a solution and a message; a failure is reported. -/
def readReply (s : Session) (m : Model) : Reply → SolveStatus × Arg × String × List Log.Record
  | .outcome status solution message => (status, solution, message, [])
  | .failure text =>
    (.error, Arg.ofFloats (List.replicate m.columns Binary64.zero), text,
      [s.record Log.error s!": {s.solver} backend failed: {text}"])

/-- **The end**, `elapsed` seconds later. `m` is the model that was handed out. A session that has been
disposed of in the meantime stays so. -/
def finishSolve (s : Session) (dot : ScalarProduct) (m : Model) (reply : Reply) (elapsed : Binary64) :
    Session × List Log.Record × Except Error SolveStatus :=
  let (status, solution, message, reported) := s.readReply m reply
  let s := { s with elapsed := elapsed }
  match s.stage with
  | .disposed => (s, reported, .ok status)
  | _ =>
    if hasSolution status then
      let (s, lines, result) := s.takeSolution dot m status solution
      (s, reported ++ lines, result)
    else
      ({ s with stage := .failed m },
        reported ++ [s.record Log.warning s!": solve failed ({message})"], .ok status)

/-- **Solves with an engine.** `read` counts the clock readings made before. -/
def solve (s : Session) (dot : ScalarProduct) (engine : Engine) (config : Config) (clock : Clock) (read : Nat) :
    Session × Traced (Except Error SolveStatus) :=
  match s.startSolve with
  | .error e => (s, ⟨.error e, 0, [], []⟩)
  | .ok (waiting, m, started) =>
    let work := m.solve engine config (limitArg s.timeLimit) clock (read + 1)
    let elapsed := (clock (read + 1 + work.readings)).sub (clock read)
    let (s', lines, result) := waiting.finishSolve dot m (Reply.ofResult work.result) elapsed
    (s', ⟨result, work.readings + 2, started ++ work.records ++ lines, work.calls⟩)

end Session

end Milp
