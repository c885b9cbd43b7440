import Milp.Decimal.Styled
import Milp.CommandLine.Options
import Milp.Instance.Generate
import Milp.Registry
import Milp.Session.Loading
import Milp.Session.Solving

/-!
# A run of the command line

One run generates an instance, builds its model in a session, solves it and reports. The run is cut
where time passes, so that whoever carries it out can look at the clock in between:

* `Job.prepare` and `Job.build` — instance, session and loaded model, or how the run stops;
* `Job.conclude` — what is written after the session has been solved.

A run stops early with a report when its arguments are refused in a way that a user can put right. All
other errors, which only options without a value lead to, break the run off. However it ends, the handle of
its session is disposed of first.

`carryOut` does all of it with a given scalar product, engine and clock, and `run` is what can be seen of it.
-/

namespace Milp.CommandLine

/-- **The data of a solved run**, in the order in which it is written. -/
structure Payload where
  status : SolveStatus
  mode : Mode
  buildSeconds : Binary64
  solveSeconds : Binary64
  answer : Option (Binary64 × List Binary64)
  deriving DecidableEq

/-- **The line for the user** about a solved run: the sizes of the instance, and what the row cache has counted. -/
def Payload.summary (p : Payload) (columns rows hits entries : Nat) : String :=
  s!"{p.status.name} | columns={columns} rows={rows}" ++
    s!" mode={p.mode.name} | cache hits={hits} entries={entries}" ++
    s!" | build={p.buildSeconds.millisText}s solve={p.solveSeconds.millisText}s" ++
    (match p.answer with
      | some (score, _) => s!" | score={score.significantText 6}"
      | none => "")

/-- **What a run leaves behind**: the exit code, a line for the user, the data if there is any, the
records, the engine calls, and the registry, which is empty if the run has not come to a session. -/
structure Report where
  exit : Nat
  line : String
  payload : Option Payload
  records : List Log.Record
  calls : List EngineCall
  registry : Registry

/-- **How a run stops early**: with a report, or broken off by an error, which leaves a registry, too. -/
inductive Stop where
  | reported (r : Report)
  | broken (e : Error) (registry : Registry)

/-- The registry that an early stop leaves behind. -/
def Stop.registry : Stop → Registry
  | reported r => r.registry
  | broken _ registry => registry

/-- **The registry that a run leaves behind**, in whatever way it has ended. -/
def registryLeft : Except Stop Report → Registry
  | .ok r => r.registry
  | .error stop => stop.registry

/-- The exit code for a status. -/
def exitCode : SolveStatus → Nat
  | .optimal => 0
  | .timeLimit => 0
  | .infeasible => 3
  | .unbounded => 3
  | .error => 4

/-- The exit code for arguments that cannot be used. -/
def refusalCode : Nat := 2

/-- The engine of a run as sessions know it. -/
def backend : Backend := ⟨"pulp-cbc", .float Binary64.infinity⟩

namespace Options

/-- The parameters of the instance. -/
def parameters (o : Options) : Parameters where
  columns := o.columns.arg .int
  rows := o.rows.arg .int
  patterns := o.patterns.arg .int
  density := o.density.arg .float
  integerShare := o.integerShare.arg .float
  seed := o.seed.arg .int

/-- A number that may be missing, as an argument. -/
def numberArg : Option (Setting Binary64) → Arg
  | some x => x.arg .float
  | none => .absent

/-- The settings of the engine. -/
def config (o : Options) : Config := { Config.plain with gap := numberArg o.gap }

/-- The mode, as an argument. -/
def modeArg (o : Options) : Arg := o.mode.arg fun m => .text m.name

/-- The file for the data of the run, if there is one. -/
def file? (o : Options) : Option String :=
  match o.output with
  | some (.given path) => if path.isEmpty then none else some path
  | _ => none

/-- The least level of records that are shown. -/
def logLevel (o : Options) : Log.Level :=
  if o.verbosity = 0 then Log.warning else if o.verbosity = 1 then Log.info else Log.debug

end Options

/-- **A run under way**: the instance, the registry with the session under its handle, the number of rows
that the cache had, and the records so far. -/
structure Job where
  options : Options
  problem : Instance
  registry : Registry
  handle : Nat
  session : Session
  hits : Nat
  records : List Log.Record

namespace Job

/-- A report without data. -/
def refusal (line : String) (records : List Log.Record) (registry : Registry) : Report :=
  ⟨refusalCode, line, none, records, [], registry⟩

/-- **The handle is disposed of** before a run ends, which then knows the registry and the records of that. -/
def disposing {α : Type} (registry : Registry) (handle : Nat)
    (ending : Registry → List Log.Record → Except Stop α) : Except Stop α :=
  match registry.dispose (.int handle) with
  | .ok (registry, lines) => ending registry lines
  | .error e => .error (.broken e registry)

/-- The end of a run under way, with its session in the registry. -/
def closing {α : Type} (j : Job) (ending : Registry → List Log.Record → Except Stop α) : Except Stop α :=
  disposing (j.registry.update j.handle j.session) j.handle ending

/-- **The instance and a session for it.** -/
def prepare (o : Options) : Except Stop Job :=
  match Instance.generate o.parameters with
  | .error e =>
    .error (if e.isBadValue then
        .reported (refusal s!"Invalid instance parameters: {e.message}" [] Registry.empty)
      else .broken e Registry.empty)
  | .ok p =>
    match Registry.empty.construct backend .absent (.int p.columns) (.int p.rows.length) with
    | .error e => .error (.broken e Registry.empty)
    | .ok (registry, handle, records) =>
      match registry.get (.int handle) with
      | .ok s => .ok ⟨o, p, registry, handle, s, 0, records⟩
      | .error e => disposing registry handle fun registry _ => .error (.broken e registry)

/-- How the building of a model stops. -/
def stopBuilding {α : Type} (j : Job) (e : Error) : Except Stop α :=
  j.closing fun registry lines =>
    .error (if e.isInvalidArgument then
        .reported (refusal s!"Model construction failed: {e.message}" (j.records ++ lines) registry)
      else .broken e registry)

/-- **The loaded model.** -/
def build (j : Job) : Except Stop Job :=
  match j.session.setTimeLimit (Options.numberArg j.options.timeLimit) with
  | .error e => j.stopBuilding e
  | .ok s =>
    match s.load j.registry.cache j.problem.given j.options.modeArg with
    | (s, cache, result) =>
      let j := { j with session := s, registry := { j.registry with cache := cache } }
      match result with
      | .error e => j.stopBuilding e
      | .ok hits => .ok { j with hits := hits }

/-- The data of a run that ended with a status. -/
def payload (j : Job) (status : SolveStatus) (buildSeconds : Binary64) : Payload where
  status := status
  mode := j.options.mode.getD .cached
  buildSeconds := buildSeconds
  solveSeconds := j.session.elapsed
  answer :=
    match j.session.result "get_score" with
    | .ok (solution, score) => some (score, solution)
    | .error _ => none

/-- The line for the user. -/
def line (j : Job) (p : Payload) : String :=
  p.summary j.problem.columns j.problem.rows.length j.hits j.registry.cache.size

/-- **The report** of a run that has been solved; the handle has been disposed of. -/
def report (j : Job) (status : SolveStatus) (buildSeconds : Binary64) (calls : List EngineCall)
    (registry : Registry) (lines : List Log.Record) : Report :=
  let p := j.payload status buildSeconds
  ⟨exitCode status, j.line p, some p, j.records ++ lines, calls, registry⟩

end Job

/-- A report without the records below the level of the options. -/
def Report.shown (r : Report) (o : Options) : Report :=
  { r with records := r.records.filter fun line => decide (o.logLevel.rank ≤ line.level.rank) }

/-- **The report after solving**: the session, how solving ended, and what was recorded on the way. -/
def Job.conclude (j : Job) (s : Session) (result : Except Error SolveStatus)
    (records : List Log.Record) (buildSeconds : Binary64) (calls : List EngineCall) :
    Except Stop Report :=
  let j := { j with session := s, records := j.records ++ records }
  j.closing fun registry lines =>
    match result with
    | .ok status => .ok (j.report status buildSeconds calls registry lines)
    | .error e => .error (.broken e registry)

/-- The report of a run that has ended in any way, or the error that broke it off. -/
def settle (o : Options) : Except Stop Report → Except Error Report
  | .ok r | .error (.reported r) => .ok (r.shown o)
  | .error (.broken e _) => .error e

/-- **One run** with an engine and a clock, from the options to its end. -/
def carryOut (o : Options) (dot : ScalarProduct) (engine : Engine) (clock : Clock) : Except Stop Report := do
  let j ← (← Job.prepare o).build
  let (s, work) := j.session.solve dot engine o.config clock 2
  j.conclude s work.result work.records ((clock 1).sub (clock 0)) work.calls

/-- **What can be seen of a run.** Records below the level of the options are left out. -/
def run (o : Options) (dot : ScalarProduct) (engine : Engine) (clock : Clock) : Except Error Report :=
  settle o (carryOut o dot engine clock)

end Milp.CommandLine
