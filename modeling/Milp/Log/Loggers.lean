import Milp.Log.Format
import Milp.Arg.Vector

/-!
# Loggers

Loggers form a tree by their dotted names. The library's own logger `rootName` holds the handlers and a
level; loggers below it have level zero and take their level from it. Setting up happens once, also on
its own accord when a logger is asked for; `reset` undoes it.

* `Loggers.setup`, `Loggers.setLevel`, `Loggers.reset` — the configuration.
* `Loggers.logger` — asks for a logger by its name.
* `Loggers.write` — the lines that a record gives on every handler's output.
-/

namespace Milp.Log

/-- Where lines go. -/
inductive Output where
  | standardError
  | stream (name : String)
  deriving DecidableEq

/-- **A handler**: a level, an output and a format. -/
structure Handler where
  level : Level
  output : Output
  format : Format
  deriving DecidableEq

/-- **The loggers**: the level at the top of the tree, the level and handlers of the library's logger,
and whether it has been set up. All other loggers have level zero. -/
structure Loggers where
  top : Level
  level : Level
  handlers : List Handler
  configured : Bool
  deriving DecidableEq

namespace Loggers

/-- Nothing has been set up. -/
def bare : Loggers := ⟨warning, notSet, [], false⟩

/-! ## Levels from arguments -/

/-- The names under which levels can be given. -/
def levelNames : List (String × Level) :=
  [("CRITICAL", critical), ("FATAL", critical), ("ERROR", error), ("WARN", warning),
   ("WARNING", warning), ("INFO", info), ("DEBUG", debug), ("NOTSET", notSet)]

/-- A level given by number, by flag or by name. -/
def readLevel : Arg → Except Error Level
  | .flag b => .ok (.flag b)
  | .int n => .ok (.number n)
  | .text s =>
    match levelNames.lookup s with
    | some level => .ok level
    | none => .error (.fault .unreadable)
  | _ => .error (.fault .wrongKind)

/-- A format given by text. Nothing asks for the plain format, and nothing much (the empty text, zero)
for the bare one. -/
def readFormat : Arg → Except Error Format
  | .absent => .ok Format.plain
  | a =>
    if !a.toFlag then .ok Format.bare
    else
      match a with
      | .text s =>
        match Format.read s with
        | some f => .ok f
        | none => .error (.fault .unreadable)
      | _ => .error (.fault .wrongKind)

/-! ## Configuration -/

/-- **Sets up the library's logger** with one handler, unless that has been done. The level is set
before the format is read. -/
def setup (l : Loggers) (level format : Arg) (output : Output) : Loggers × Except Error Unit :=
  if l.configured then (l, .ok ())
  else
    match readLevel level with
    | .error e => (l, .error e)
    | .ok level =>
      let l := { l with level := level, handlers := [] }
      match readFormat format with
      | .error e => (l, .error e)
      | .ok f => ({ l with handlers := [⟨notSet, output, f⟩], configured := true }, .ok ())

/-- The set-up that happens of its own accord: warnings to standard error. -/
def ensure (l : Loggers) : Loggers := (l.setup warning.arg .absent .standardError).1

/-- The loggers when the library is first used. -/
def initial : Loggers := bare.ensure

/-- **Sets the level** of the library's logger and its handlers. -/
def setLevel (l : Loggers) (level : Arg) : Loggers × Except Error Unit :=
  let l := l.ensure
  match readLevel level with
  | .error e => (l, .error e)
  | .ok level =>
    ({ l with level := level, handlers := l.handlers.map fun h => { h with level := level } }, .ok ())

/-- **Takes back the set-up.** -/
def reset (l : Loggers) : Loggers := { l with level := notSet, handlers := [], configured := false }

/-! ## Loggers by name -/

/-- The name of the logger at the top of the tree. -/
def topName : String := "root"

/-- Whether a name is that of the library's logger or of one below it. -/
def isOwn (name : String) : Bool := name == rootName || (rootName ++ ".").isPrefixOf name

/-- The level in force for a logger: its own or that of the nearest logger above that has one. -/
def effectiveLevel (l : Loggers) (name : String) : Level :=
  if isOwn name ∧ l.level.rank ≠ 0 then l.level
  else if l.top.rank ≠ 0 then l.top
  else notSet

/-- The name of the logger that is asked for by an argument; nothing, or nothing much, asks for the one
at the top. -/
def nameOf (a : Arg) : Except Error String :=
  match a with
  | .text s => .ok (if s.isEmpty then topName else s)
  | a => if a.toFlag then .error (.fault .wrongKind) else .ok topName

/-- **Asks for a logger**, whose own level becomes zero. -/
def logger (l : Loggers) (name : Arg) : Loggers × Except Error String :=
  let l := l.ensure
  match nameOf name with
  | .error e => (l, .error e)
  | .ok name =>
    if name == rootName then ({ l with level := notSet }, .ok name)
    else if name == topName then ({ l with top := notSet }, .ok name)
    else (l, .ok name)

/-- The level that a logger has of its own. -/
def ownLevel (l : Loggers) (name : String) : Level :=
  if name == rootName then l.level else if name == topName then l.top else notSet

/-! ## Writing -/

/-- Whether a logger takes a record of a level. Levels of zero and below are always refused. -/
def isEnabled (l : Loggers) (name : String) (level : Level) : Bool :=
  decide (0 < level.rank ∧ (l.effectiveLevel name).rank ≤ level.rank)

/-- **The lines that a record gives**, with their outputs. -/
def write (l : Loggers) (r : Record) : List (Output × String) :=
  if l.isEnabled r.logger r.level ∧ isOwn r.logger then
    (l.handlers.filter fun h => decide (h.level.rank ≤ r.level.rank)).filterMap fun h =>
      (h.format.line? r).map fun line => (h.output, line)
  else []

end Loggers

end Milp.Log
