import Milp.Arg.Basic

/-!
# Log records

What the library tells about its work: a level, the name of the logger and a message. Operations hand
their records back with their results; `Milp.Log.Loggers` says which of them are written where.
-/

namespace Milp.Log

/-! ## Levels -/

/-- **The importance of a record**: a number, which may lie between the named ones, or a flag. -/
inductive Level where
  | number (n : Int)
  | flag (b : Bool)
  deriving DecidableEq

namespace Level

/-- **The weight of a level**, by which levels are compared. A flag weighs zero or one. -/
def rank : Level → Int
  | number n => n
  | flag b => if b then 1 else 0

/-- A level as an argument. -/
def arg : Level → Arg
  | number n => .int n
  | flag b => .flag b

end Level

def notSet : Level := .number 0
def debug : Level := .number 10
def info : Level := .number 20
def warning : Level := .number 30
def error : Level := .number 40
def critical : Level := .number 50

/-- The named levels. -/
def namedLevels : List (Level × String) :=
  [(notSet, "NOTSET"), (debug, "DEBUG"), (info, "INFO"), (warning, "WARNING"), (error, "ERROR"),
   (critical, "CRITICAL")]

/-- **The name of a level.** Levels of one weight share a name; one without a name shows itself. -/
def levelName (level : Level) : String :=
  match namedLevels.find? fun p => decide (p.1.rank = level.rank) with
  | some p => p.2
  | none => s!"Level {level.arg.shown}"

/-! ## Records -/

/-- **A record** of the log. Its message may be anything that can be shown. -/
structure Record where
  level : Level
  logger : String
  message : Arg

/-- The message of a record as it is shown. -/
def Record.text (r : Record) : String := r.message.shown

/-- The name of the library's own logger, above all others. -/
def rootName : String := "sparselp"

/-- The name of a logger below the library's own. -/
def loggerName (part : String) : String := rootName ++ "." ++ part

end Milp.Log
