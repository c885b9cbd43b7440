import Milp.Solve.Box
import Milp.Log.Record

/-!
# Solving with an engine

A model is solved in closed form where no constraint is left, and by an engine otherwise. An `Engine`
takes a linear program with its settings and initial values, and either fails or answers with two
codes and values for the columns. Everything an engine says is checked: unknown codes and values that are
no numbers are refused, and columns without a value get the fall-back value.

* `Model.startValues` — the initial values that an engine is given.
* `Model.solve` — the outcome for a model, with the clock readings, records and engine calls made.
-/

namespace Milp

/-- **Settings** of solving, as the caller gave them. -/
structure Config where
  timeLimit : Arg
  message : Arg
  gap : Arg
  threads : Arg
  warmStart : Arg
  keepFiles : Arg

/-- The settings when none are given: no limit, no messages, initial values allowed. -/
def Config.plain : Config := ⟨.absent, .flag false, .absent, .absent, .flag true, .flag false⟩

/-- **A call of an engine.** -/
structure EngineCall where
  message : Arg
  timeLimit : Arg
  gap : Arg
  threads : Arg
  warmStart : Bool
  keepFiles : Arg
  program : Program
  initial : List (Option Binary64)

/-- A number that need not be given. -/
def givenNumber? : Arg → Except Error (Option Binary64)
  | .absent => .ok none
  | a =>
    match a.toNumber with
    | .ok x => .ok (some x)
    | .error (.fault f) => .error (.notANumber a f)
    | .error e => .error e

/-- The two settings of a call that an engine needs as numbers: the time limit and the gap. -/
def EngineCall.numbers (call : EngineCall) : Except Error (Option Binary64 × Option Binary64) := do
  return (← givenNumber? call.timeLimit, ← givenNumber? call.gap)

/-- **What an engine answers**: a failure, or two codes and values for the first columns, of which
nothing is known yet. The second code need not be given. Columns beyond the values keep their initial
value. -/
inductive EngineAnswer where
  | failed (cause : Error)
  | answered (status solutionStatus : Arg) (values : List Arg)

/-- An engine. -/
abbrev Engine := EngineCall → EngineAnswer

/-- The reading of a clock, by the number of readings before. -/
abbrev Clock := Nat → Binary64

/-- **A piece of work and its traces**: the result, the number of clock readings, the records written
and the engine calls made. -/
structure Traced (α : Type) where
  result : α
  readings : Nat
  records : List Log.Record
  calls : List EngineCall

/-- Solving writes its records under this name. -/
def solverLogger : String := Log.loggerName "solvers.milp_pulp"

/-- A time limit as an argument. -/
def limitArg : Option Binary64 → Arg
  | none => .absent
  | some x => .float x

namespace Model

/-! ## Initial values -/

/-- The start value of a column moved into its bounds, for an integer column the nearest whole
number. -/
def startValue (c : ColumnData) (x : Binary64) : Binary64 :=
  let v := x.clip c.lower c.upper
  if c.integer then v.roundEven else v

/-- An initial value has to lie within the bounds that the column has in the linear program. -/
def checkInitial (m : Model) (column : Nat) (c : ColumnData) (v : Binary64) : Except Error Unit :=
  match m.bound? c.lower, m.bound? c.upper with
  | some lo, hi? =>
    if v.lt lo then .error (.initialValue column v .lower lo)
    else checkAbove column v hi?
  | none, hi? => checkAbove column v hi?
where
  checkAbove (column : Nat) (v : Binary64) : Option Binary64 → Except Error Unit
    | some hi => if hi.lt v then .error (.initialValue column v .upper hi) else .ok ()
    | none => .ok ()

/-- The initial values of the columns from a position on. -/
def initialFrom (m : Model) : Nat → List ColumnData → List Binary64 →
    Except Error (List (Option Binary64))
  | column, c :: cs, x :: xs => do
    let v := startValue c x
    m.checkInitial column c v
    return some v :: (← initialFrom m (column + 1) cs xs)
  | _, _, _ => .ok []

/-- **The initial values for an engine**, and whether there are any: the start values, if the model
has them and the settings allow them. -/
def startValues (m : Model) (config : Config) : Except Error (Bool × List (Option Binary64)) :=
  match m.start with
  | some start =>
    if config.warmStart.toFlag then do return (true, ← m.initialFrom 0 m.columnData start)
    else .ok (false, List.replicate m.columns none)
  | none => .ok (false, List.replicate m.columns none)

/-! ## The engine's answer -/

/-- The values of the columns after an engine has written its own over the initial ones. -/
def overwrite : List (Option Binary64) → List (Option Binary64) → List (Option Binary64)
  | _ :: initial, v :: values => v :: overwrite initial values
  | initial, [] => initial
  | [], _ => []

/-- The values of the columns, the fall-back value where there is none. -/
def fillIn : List Binary64 → List (Option Binary64) → List Binary64
  | _ :: xs, some v :: vs => v :: fillIn xs vs
  | x :: xs, none :: vs => x :: fillIn xs vs
  | xs, [] => xs
  | [], _ => []

/-- A value for a column, if there is one. -/
def readValue : Arg → Except Error (Option Binary64)
  | .list items => .error (.notANumber (.list items) .unreadable)
  | a => givenNumber? a

/-- A code that has to be known. -/
def checkCode (isKnown : Bool) (refusal : Error) (code : Arg) : Except Error Unit :=
  match code with
  | .list _ | .record _ => .error (.notAKey code)
  | _ => if isKnown then .ok () else .error refusal

/-- **The two codes of an answer**, if both are known. The first one is looked at first; the second one
follows from it if it is missing. -/
def checkCodes (status solutionStatus : Arg) : Except Error (Arg × Arg) := do
  checkCode (EngineStatus.nameOf? status).isSome (.statusCode status) status
  let second := match solutionStatus with
    | .absent => .int (EngineStatus.solutionStatus status)
    | given => given
  checkCode (EngineStatus.isSolutionStatus second) (.solutionStatusCode second) second
  return (status, second)

/-- The codes and values of an engine's answer. -/
def readAnswer : EngineAnswer → Except Error ((Arg × Arg) × List Arg)
  | .failed cause => .error cause
  | .answered status solutionStatus values => do return (← checkCodes status solutionStatus, values)

/-- **The outcome for codes and values** after `elapsed` seconds. Values beyond the columns are not
looked at. -/
def outcomeOf (m : Model) (initial : List (Option Binary64)) (timeLimit : Arg) (elapsed : Binary64)
    (codes : Arg × Arg) (values : List Arg) : Except Error Outcome := do
  let status ← classify codes.1 codes.2 timeLimit (.float elapsed)
  let values ← (values.take m.columns).mapM readValue
  return {
    status := status
    solution := fillIn m.fallback (overwrite initial values)
    message := (EngineStatus.nameOf? codes.1).getD "Unknown"
    elapsed := elapsed
    codes := some codes }

/-! ## Solving -/

/-- The record about rows that cannot hold. -/
def violatedRecord (rows : List Nat) : Log.Record :=
  ⟨Log.debug, solverLogger,
    .text s!"Rows {Text.bracketed ((rows.take 10).map toString)} have no nonzeros and exclude zero"⟩

/-- The record about an engine call. -/
def callRecord (m : Model) (p : Program) (timeLimit : Arg) : Log.Record :=
  ⟨Log.debug, solverLogger,
    .text (s!"Calling CBC: {m.columns} columns, {p.constraints.length} constraints, " ++
      s!"time limit {timeLimit.shown}")⟩

/-- The engine call for a model. -/
def engineCall (config : Config) (timeLimit : Arg) (p : Program)
    (start : Bool × List (Option Binary64)) : EngineCall where
  message := config.message
  timeLimit := timeLimit
  gap := config.gap
  threads := config.threads
  warmStart := start.1
  keepFiles := config.keepFiles
  program := p
  initial := start.2

/-- **Solves a program with an engine.** The clock is read once more when the engine has answered. -/
def callEngine (m : Model) (engine : Engine) (call : EngineCall) (started : Binary64)
    (clock : Clock) (read : Nat) : Traced (Except Error Outcome) :=
  let line := m.callRecord call.program call.timeLimit
  match readAnswer (engine call) with
  | .error e => ⟨.error e, 0, [line], [call]⟩
  | .ok (codes, values) =>
    let elapsed := (clock read).sub started
    ⟨m.outcomeOf call.initial call.timeLimit elapsed codes values, 1, [line], [call]⟩

/-- **Solves a model.** Rows that cannot hold make it infeasible; without constraints it is solved in
closed form; otherwise the engine is called. `read` counts the clock readings made before. -/
def solve (m : Model) (engine : Engine) (config : Config) (timeLimit : Arg) (clock : Clock)
    (read : Nat) : Traced (Except Error Outcome) :=
  let started := clock read
  if m.rows.isEmpty then ⟨.ok m.solveBox, 0, [], []⟩
  else
    match m.translate with
    | .error e => ⟨.error e, 1, [], []⟩
    | .ok program =>
      if !m.violated.isEmpty then
        ⟨.ok ⟨.infeasible, m.fallback, s!"{m.violated.length} empty row(s) cannot be satisfied",
            (clock (read + 1)).sub started, none⟩, 2, [violatedRecord m.violated], []⟩
      else if program.constraints.isEmpty then ⟨.ok m.solveBox, 1, [], []⟩
      else
        match m.startValues config with
        | .error e => ⟨.error e, 1, [], []⟩
        | .ok start =>
          let call := engineCall config timeLimit program start
          let work := m.callEngine engine call started clock (read + 1)
          { work with readings := work.readings + 1 }

end Model

/-! ## Time limits -/

/-- **A time limit in seconds**: none for nothing and for infinity; otherwise a positive number. -/
def normalizeTimeLimit : Arg → Except Error (Option Binary64)
  | .absent => .ok none
  | seconds =>
    match seconds.toNumber with
    | .error (.fault .tooLarge) => .error (.fault .tooLarge)
    | .error _ => .error (.timeLimitNotNumber seconds)
    | .ok x =>
      if x.isNaN || x.le Binary64.zero then .error (.timeLimitNotPositive x)
      else if x.isInfinite then .ok none
      else .ok (some x)

end Milp
