import Milp.Log.Loggers

/-!
# Calls on the loggers

The loggers among those who use them, as a run of calls, and what the calls alone tell about the level in force.

* `Loggers.Call`, `Loggers.call` and `Loggers.run` — one call, and calls in a row.
* `Setting` and `Loggers.lastSetting?` — the level that was set last, read off the calls.
-/

namespace Milp.Log

namespace Loggers

/-! ## Calls -/

/-- **A call** on the loggers. -/
inductive Call where
  | setup (level format : Arg) (output : Output)
  | logger (name : Arg)
  | setLevel (level : Arg)
  | reset

/-- **The answer** to a call. -/
inductive Answer where
  | done
  /-- a logger is handed out, under its name -/
  | logger (name : String)

/-- **Carries out a call.** -/
def call (l : Loggers) : Call → Loggers × Except Error Answer
  | .setup level format output =>
    let (l', answer) := l.setup level format output
    (l', answer.map fun _ => .done)
  | .logger name =>
    let (l', answer) := l.logger name
    (l', answer.map .logger)
  | .setLevel level =>
    let (l', answer) := l.setLevel level
    (l', answer.map fun _ => .done)
  | .reset => (l.reset, .ok .done)

/-- **The loggers after calls in a row.** -/
def run (l : Loggers) (calls : List Call) : Loggers := calls.foldl (fun l c => (l.call c).1) l

@[simp] theorem run_nil (l : Loggers) : l.run [] = l := rfl

@[simp] theorem run_cons (l : Loggers) (c : Call) (rest : List Call) :
    l.run (c :: rest) = (l.call c).1.run rest := rfl

end Loggers

/-! ## The level that was set last -/

/-- **The level that was set last**, while the library's logger is set up. -/
structure Setting where
  level : Level
  /-- the library's own logger has been asked for since -/
  asked : Bool
  deriving DecidableEq

namespace Setting

/-- What is set up of its own accord. -/
def plain : Setting := ⟨warning, false⟩

/-- The setting when a logger has been asked for. -/
def ask (s : Setting) (name : Arg) : Setting :=
  { s with asked := s.asked || (Loggers.nameOf name).toOption == some rootName }

/-- **The setting after a call**; there is none until the library's logger is set up. What is set up stays so, and
is only changed where a level is set. -/
def after (s? : Option Setting) : Loggers.Call → Option Setting
  | .setup level format _ =>
    match s?, Loggers.readLevel level, Loggers.readFormat format with
    | none, .ok level, .ok _ => some ⟨level, false⟩
    | s?, _, _ => s?
  | .logger name => some ((s?.getD plain).ask name)
  | .setLevel level =>
    match Loggers.readLevel level with
    | .ok level => some ⟨level, false⟩
    | .error _ => some (s?.getD plain)
  | .reset => none

end Setting

/-- **The level that was set last**, after calls in a row since the library was first used. -/
def Loggers.lastSetting? (calls : List Call) : Option Setting := calls.foldl Setting.after (some .plain)

end Milp.Log
