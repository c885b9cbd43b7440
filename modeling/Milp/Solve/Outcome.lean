import Milp.Program

/-!
# Outcomes of solving

The five ways in which solving a model can end, how the two status codes of an engine are read as one
of them, and what a solver hands back.
-/

namespace Milp

/-- **How solving ended.** None of these is an error of the caller. -/
inductive SolveStatus where
  | optimal
  | infeasible
  | unbounded
  | timeLimit
  | error
  deriving DecidableEq

namespace SolveStatus

def code : SolveStatus → Int
  | optimal => 0
  | infeasible => 1
  | unbounded => 2
  | timeLimit => 3
  | error => 4

def name : SolveStatus → String
  | optimal => "OPTIMAL"
  | infeasible => "INFEASIBLE"
  | unbounded => "UNBOUNDED"
  | timeLimit => "TIME_LIMIT"
  | error => "ERROR"

/-- The status with a given code. -/
def ofCode? (n : Int) : Option SolveStatus :=
  [optimal, infeasible, unbounded, timeLimit, error].find? fun s => decide (s.code = n)

end SolveStatus

/-! ## Status codes of engines -/

namespace EngineStatus

def notSolved : Int := 0
def optimal : Int := 1
def infeasible : Int := -1
def unbounded : Int := -2
def undefined : Int := -3

/-- The code of a solution that is feasible but not known to be optimal. -/
def integerFeasible : Int := 2

/-- The words for a status code, if it is one. -/
def name? (status : Int) : Option String :=
  if status = notSolved then some "Not Solved"
  else if status = optimal then some "Optimal"
  else if status = infeasible then some "Infeasible"
  else if status = unbounded then some "Unbounded"
  else if status = undefined then some "Undefined"
  else none

/-- The words for a status code in any form: numbers of all kinds are codes by their value. -/
def nameOf? (status : Arg) : Option String := status.whole?.bind name?

/-- Whether an argument is the code of a solution's status. -/
def isSolutionStatus (status : Arg) : Bool :=
  match status.whole? with
  | some n => decide (-2 ≤ n ∧ n ≤ 2)
  | none => false

/-- The status of the solution that goes with a status, when the engine names none. -/
def solutionStatus (status : Arg) : Int :=
  if status.whole? = some optimal then 1 else if status.whole? = some unbounded then -2 else -1

end EngineStatus

/-- **The reading of an engine's two codes.** A run cut short comes back as optimal with a feasible
solution, which is a time-out only if the limit was reached; a run without any solution comes back
as not solved, which is a time-out if there is a limit. -/
def SolveStatus.ofCodes (status solutionStatus : Option Int) (limited reached : Bool) : SolveStatus :=
  if status = some EngineStatus.optimal then
    if solutionStatus = some EngineStatus.integerFeasible ∧ reached = true then .timeLimit
    else .optimal
  else if status = some EngineStatus.notSolved ∧ limited = true then .timeLimit
  else if status = some EngineStatus.infeasible then .infeasible
  else if status = some EngineStatus.unbounded then .unbounded
  else .error

/-- Whether there is a time limit. -/
def isLimited : Arg → Bool
  | .absent => false
  | _ => true

/-- Whether a time limit has been reached, if the two can be compared. -/
def limitReached (timeLimit elapsed : Arg) : Except Error Bool :=
  if isLimited timeLimit then
    match elapsed.atLeast timeLimit with
    | some reached => .ok reached
    | none => .error (.fault .wrongKind)
  else .ok false

/-- **The status for two codes** after some time under a limit. What is no integer is no code. -/
def classify (status solutionStatus timeLimit elapsed : Arg) : Except Error SolveStatus := do
  let reached ← limitReached timeLimit elapsed
  return SolveStatus.ofCodes status.whole? solutionStatus.whole? (isLimited timeLimit) reached

/-- **What a solver hands back** for a model. `codes` are the two codes of the engine, if it ran, as the
engine gave them. -/
structure Outcome where
  status : SolveStatus
  solution : List Binary64
  message : String
  elapsed : Binary64
  codes : Option (Arg × Arg)

end Milp
