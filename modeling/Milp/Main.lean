import Milp.CommandLine.Document
import Milp.Exact.Solver

/-!
# The command line program

Reads the arguments, carries out one run with the exact engine and looks at the clock in between. All
decisions are made in `Milp.CommandLine`.
-/

namespace Milp.CommandLine

/-- Nanoseconds as seconds. -/
def seconds (nanos : Nat) : Binary64 := Binary64.ofDecimal false nanos (-9)

/-- Carries out a piece of work and tells how many seconds it took. -/
@[noinline] def timed {α : Type} (work : Unit → α) : IO (α × Binary64) := do
  let start ← IO.monoNanosNow
  let result ← IO.lazyPure work
  let stop ← IO.monoNanosNow
  return (result, seconds (stop - start))

/-- The exit code of a run that an error has broken off. -/
def brokenCode : UInt32 := 1

/-- Writes out how a run has ended, and gives the exit code. -/
def publish (o : Options) (ending : Except Stop Report) : IO UInt32 := do
  match settle o ending with
  | .error e =>
    IO.eprintln s!"error: {e.message}"
    return brokenCode
  | .ok r =>
    for line in r.records do
      IO.eprintln s!"{line.logger} - {Log.levelName line.level} - {line.text}"
    IO.eprintln r.line
    match o.file?, r.payload with
    | some path, some p => IO.FS.writeFile path p.document
    | _, _ => pure ()
    return r.exit.toUInt32

/-- Solves the loaded model with the exact engine. -/
def solveLoaded (o : Options) (j : Job) (buildSeconds : Binary64) : IO UInt32 := do
  match j.session.startSolve with
  | .error e => publish o (j.conclude j.session (.error e) [] buildSeconds [])
  | .ok (waiting, m, started) =>
    let limit := limitArg waiting.timeLimit
    let (work, elapsed) ←
      timed fun _ => m.solve Exact.engine o.config limit (fun _ => Binary64.zero) 0
    let (s, lines, result) := waiting.finishSolve Binary64.dot m (Reply.ofResult work.result) elapsed
    publish o (j.conclude s result (started ++ work.records ++ lines) buildSeconds work.calls)

/-- Carries out the command line given by the arguments; the result is the exit code. -/
def execute (arguments : List String) : IO UInt32 := do
  match Options.read arguments with
  | .error .help =>
    IO.println helpText
    return 0
  | .error (.refused text) =>
    IO.eprintln s!"error: {text}"
    return refusalCode.toUInt32
  | .ok o =>
    match Job.prepare o with
    | .error stop => publish o (.error stop)
    | .ok j =>
      match ← timed fun _ => j.build with
      | (.error stop, _) => publish o (.error stop)
      | (.ok j, buildSeconds) => solveLoaded o j buildSeconds

end Milp.CommandLine

def main (arguments : List String) : IO UInt32 := Milp.CommandLine.execute arguments
