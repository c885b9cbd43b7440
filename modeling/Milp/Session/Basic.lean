import Milp.Solve.Engine

/-!
# Sessions

The life of one model: it is built, then solved once, then read, and at any time it may be disposed of.
A `Stage` holds exactly what exists in that part of the life, so that a solution can only be read
where there is one and a model only where it has not been released.

Operations check the stage first. Those that change the model are `Edit`s and keep the session in
`building`; `Milp.Session.Solving` leads out of it.
-/

namespace Milp

/-- **The stages of a session.** -/
inductive Stage where
  /-- the model is being built -/
  | building (model : Model)
  /-- the solver is at work; `heard` is the status of an answer that could not be used -/
  | solving (model : Model) (heard : Option SolveStatus)
  /-- there is a solution, and its value -/
  | solved (model : Model) (status : SolveStatus) (solution : List Binary64) (score : Binary64)
  /-- solving ended in an error -/
  | failed (model : Model)
  /-- everything has been released -/
  | disposed
  deriving DecidableEq

namespace Stage

/-- The name of a stage. -/
def name : Stage → String
  | building _ => "building"
  | solving _ _ => "solving"
  | solved _ _ _ _ => "solved"
  | failed _ => "failed"
  | disposed => "disposed"

/-- The model, as long as there is one. -/
def model? : Stage → Option Model
  | building m => some m
  | solving m _ => some m
  | solved m _ _ _ => some m
  | failed m => some m
  | disposed => none

/-- How solving ended, as far as that is known. -/
def status? : Stage → Option SolveStatus
  | building _ => none
  | solving _ heard => heard
  | solved _ status _ _ => some status
  | failed _ => some .error
  | disposed => none

end Stage

/-- **What a session knows of its solver**: the name, and the number that it takes for infinite. -/
structure Backend where
  name : String
  infinity : Arg

/-- **A session.** Sessions outside of a registry have no handle. -/
structure Session where
  handle : Option Nat
  solver : String
  infinity : Binary64
  timeLimit : Option Binary64
  elapsed : Binary64
  stage : Stage
  deriving DecidableEq

/-- A handle in messages. -/
def handleText : Option Nat → String
  | some h => toString h
  | none => "None"

namespace Session

/-- Sessions write their records under this name. -/
def logger : String := Log.loggerName "session"

/-- **A new session** with an empty model. -/
def create (backend : Backend) (timeLimit columns rowsHint : Arg) : Except Error Session := do
  let infinity ← backend.infinity.toNumber
  let model ← Model.create columns rowsHint (.float infinity)
  let limit ← normalizeTimeLimit timeLimit
  return ⟨none, backend.name, infinity, limit, Binary64.zero, .building model⟩

/-- A session as it is shown. -/
def text (s : Session) : String :=
  s!"SolverSession(handle={handleText s.handle}, state={s.stage.name})"

/-! ## Checks of the stage -/

/-- The model of a session that has not been disposed of. -/
def model (s : Session) : Except Error Model :=
  match s.stage.model? with
  | some m => .ok m
  | none => .error (.disposed s.handle)

/-- The model of a session that is being built. -/
def modelToBuild (s : Session) (operation : String) : Except Error Model :=
  match s.stage with
  | .building m => .ok m
  | .disposed => .error (.disposed s.handle)
  | stage => .error (.notBuilding operation stage.name)

/-- The solution and its value in a session that has been solved. -/
def result (s : Session) (operation : String) : Except Error (List Binary64 × Binary64) :=
  match s.stage with
  | .solved _ _ solution score => .ok (solution, score)
  | .disposed => .error (.disposed s.handle)
  | stage => .error (.notSolved operation stage.name)

/-! ## Building -/

/-- The number that the session takes for infinite. -/
def getInfinity (s : Session) : Except Error Binary64 := do
  let _ ← s.model
  return s.infinity

/-- **Sets the time limit** in seconds. -/
def setTimeLimit (s : Session) (seconds : Arg) : Except Error Session := do
  let _ ← s.modelToBuild "set_time_limit"
  let limit ← normalizeTimeLimit seconds
  return { s with timeLimit := limit }

/-- **Carries out an edit** on the model and the row cache that it uses. Session and cache come back from a refusal
as well. -/
def edit (s : Session) (cache : RowCache) (e : Edit) : (Session × RowCache) × Except Error (Option Bool) :=
  match s.modelToBuild e.name with
  | .error refusal => ((s, cache), .error refusal)
  | .ok m =>
    let (b, answer) := e.perform ⟨m, cache⟩
    (({ s with stage := .building b.model }, b.cache), answer)

/-! ## Reading -/

/-- **The solution.** -/
def solution (s : Session) : Except Error (List Binary64) := do
  return (← s.result "get_column_solution").1

/-- **The value of the solution.** -/
def score (s : Session) : Except Error Binary64 := do
  return (← s.result "get_score").2

/-! ## The end -/

/-- **Disposes of a session.** Model, solution and value are released; doing it again does nothing. -/
def dispose (s : Session) : Session × List Log.Record :=
  match s.stage with
  | .disposed => (s, [])
  | stage =>
    ({ s with stage := .disposed },
      [⟨Log.debug, logger,
        .text s!"Session {handleText s.handle} disposed from state {stage.name}"⟩])

end Session

end Milp
