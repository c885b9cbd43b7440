import Milp.Instance.Loading
import Milp.Error

/-!
# Options of the command line

Options are named with two dashes and may be shortened as long as the name stays unique; a value
follows as the next argument or behind an equals sign. The two short flags may be written together.
There are no other arguments, but a negative number may be a value. Two dashes behind the equals sign
leave the option without a value: it is set, but blank.

* `Token.ofArgument` says what one argument is, by itself.
* `Options.read` reads the whole command line: the options, a request for help, or a refusal.
-/

namespace Milp.CommandLine

/-- **What an option is set to**: a value, or nothing at all. -/
inductive Setting (α : Type) where
  | given (a : α)
  | blank
  deriving DecidableEq

namespace Setting

/-- A setting whose value has to be read. -/
def read {α β ε : Type} (f : α → Except ε β) : Setting α → Except ε (Setting β)
  | given a => return given (← f a)
  | blank => return blank

/-- **A setting as an argument**; a blank one is the empty list. -/
def arg {α : Type} (f : α → Arg) : Setting α → Arg
  | given a => f a
  | blank => .list []

/-- The value of a setting, another one if it is blank. -/
def getD {α : Type} (otherwise : α) : Setting α → α
  | given a => a
  | blank => otherwise

end Setting

/-- **The options.** -/
structure Options where
  columns : Setting Int
  rows : Setting Int
  patterns : Setting Int
  density : Setting Binary64
  integerShare : Setting Binary64
  seed : Setting Int
  mode : Setting Mode
  timeLimit : Option (Setting Binary64)
  gap : Option (Setting Binary64)
  output : Option (Setting String)
  verbosity : Nat
  deriving DecidableEq

/-- The options when none are given. -/
def Options.plain : Options where
  columns := .given 200
  rows := .given 400
  patterns := .given 8
  density := .given (Binary64.ofDecimal false 5 (-2))
  integerShare := .given Binary64.one
  seed := .given 0
  mode := .given .cached
  timeLimit := none
  gap := none
  output := none
  verbosity := 0

/-- An option that takes a value. -/
inductive Field where
  | columns
  | rows
  | patterns
  | density
  | integerShare
  | seed
  | mode
  | timeLimit
  | gap
  | output
  deriving DecidableEq

/-- What an option name stands for. -/
inductive Switch where
  | help
  | field (f : Field)
  | verbose
  deriving DecidableEq

/-- **How reading can end early**: with a request for help, or with a complaint. -/
inductive Ending where
  | help
  | refused (text : String)
  deriving DecidableEq

/-- All option names, in the order in which they are listed. -/
def names : List (String × Switch) :=
  [("-h", .help), ("--help", .help), ("--columns", .field .columns), ("--rows", .field .rows),
   ("--patterns", .field .patterns), ("--density", .field .density),
   ("--integer-share", .field .integerShare), ("--seed", .field .seed), ("--mode", .field .mode),
   ("--time-limit", .field .timeLimit), ("--mip-gap", .field .gap),
   ("--output-json", .field .output), ("--verbose", .verbose), ("-v", .verbose)]

/-- All names of an option, as complaints have them. -/
def Switch.names (s : Switch) : String :=
  "/".intercalate ((CommandLine.names.filter fun p => decide (p.2 = s)).map (·.1))

/-- A complaint about the use of an option. -/
def Switch.complaint (s : Switch) (text : String) : Ending :=
  .refused (s!"argument {s.names}: " ++ text)

/-! ## Values -/

/-- A value that has to be an integer. -/
def integerValue (f : Field) (value : String) : Except Ending Int :=
  match Numeral.integer? value with
  | some n => .ok n
  | none => .error ((Switch.field f).complaint s!"invalid int value: {Text.quoted value}")

/-- A value that has to be a number. -/
def numberValue (f : Field) (value : String) : Except Ending Binary64 :=
  match Numeral.number? value with
  | some x => .ok x
  | none => .error ((Switch.field f).complaint s!"invalid float value: {Text.quoted value}")

/-- A value that has to name a mode. -/
def modeValue (value : String) : Except Ending Mode :=
  match Mode.all.find? fun m => m.name == value with
  | some m => .ok m
  | none =>
    let choices := ", ".intercalate (Mode.all.map fun m => Text.quoted m.name)
    .error ((Switch.field .mode).complaint
      s!"invalid choice: {Text.quoted value} (choose from {choices})")

/-- **Sets an option**, to a value that has to be read or to nothing. -/
def Options.set (o : Options) (f : Field) (value : Setting String) : Except Ending Options :=
  match f with
  | .columns => return { o with columns := ← value.read (integerValue f) }
  | .rows => return { o with rows := ← value.read (integerValue f) }
  | .patterns => return { o with patterns := ← value.read (integerValue f) }
  | .density => return { o with density := ← value.read (numberValue f) }
  | .integerShare => return { o with integerShare := ← value.read (numberValue f) }
  | .seed => return { o with seed := ← value.read (integerValue f) }
  | .mode => return { o with mode := ← value.read modeValue }
  | .timeLimit => return { o with timeLimit := some (← value.read (numberValue f)) }
  | .gap => return { o with gap := some (← value.read (numberValue f)) }
  | .output => .ok { o with output := some value }

/-- A value attached to an option by an equals sign. -/
def attachedValue (s : String) : Setting String := if s == "--" then .blank else .given s

/-! ## Arguments by themselves -/

/-- **What an argument is**: a value, an option with its name and perhaps an attached value, or neither. -/
inductive Token where
  | value (s : String)
  | option (s : Switch) (name : String) (attached : Option String)
  | unknown (s : String)
  deriving DecidableEq

/-- The characters up to the first equals sign, and those behind it. -/
def splitEquals : List Char → List Char × Option (List Char)
  | [] => ([], none)
  | '=' :: rest => ([], some rest)
  | c :: rest =>
    let (name, value) := splitEquals rest
    (c :: name, value)

/-- A decimal digit of any script. -/
def isDigit (c : Char) : Bool := (Text.decimalDigit? c).isSome

/-- A line break at the very end does not count. -/
def dropFinalBreak (cs : List Char) : List Char :=
  if cs.getLast? = some '\n' then cs.dropLast else cs

/-- Digits only, or digits around a point with at least one behind it. -/
def isUnsigned (cs : List Char) : Bool :=
  match cs.takeWhile isDigit, cs.dropWhile isDigit with
  | _, '.' :: fraction => !fraction.isEmpty && fraction.all isDigit
  | whole, [] => !whole.isEmpty
  | _, _ => false

/-- An argument that looks like a negative number. -/
def isNegativeNumber : List Char → Bool
  | '-' :: cs => isUnsigned (dropFinalBreak cs)
  | _ => false

/-- The options that an argument with dashes may mean when it is no option's full name: those whose
name begins like a long argument, or the short flag that a short argument begins with. -/
def candidates (cs : List Char) : List (Switch × String × Option String) :=
  match cs with
  | '-' :: '-' :: _ =>
    let (name, behind) := splitEquals cs
    (names.filter fun p => name.isPrefixOf p.1.toList).map fun p =>
      (p.2, p.1, behind.map String.ofList)
  | _ =>
    (names.filter fun p => p.1.toList = cs.take 2).map fun p =>
      (p.2, p.1, some (String.ofList (cs.drop 2)))

/-- **What one argument is.** It is refused when it may mean several options. -/
def Token.ofArgument (s : String) : Except Ending Token :=
  match s.toList with
  | '-' :: c :: rest =>
    let cs := '-' :: c :: rest
    match names.lookup s with
    | some switch => .ok (.option switch s none)
    | none =>
      let (name, behind) := splitEquals cs
      match behind, names.lookup (String.ofList name) with
      | some v, some switch => .ok (.option switch (String.ofList name) (some (String.ofList v)))
      | _, _ =>
        match candidates cs with
        | [(switch, name, attached)] => .ok (.option switch name attached)
        | [] =>
          if isNegativeNumber cs || cs.contains ' ' then .ok (.value s) else .ok (.unknown s)
        | several =>
          let meanings := ", ".intercalate (several.map (·.2.1))
          .error (.refused s!"ambiguous option: {s} could match {meanings}")
  | _ => .ok (.value s)

/-- The tokens of a command line. Behind two dashes all arguments are values. -/
def tokens : List String → Except Ending (List Token)
  | [] => .ok []
  | s :: rest =>
    if s == "--" then .ok (.unknown s :: rest.map .value)
    else do return (← Token.ofArgument s) :: (← tokens rest)

/-! ## Flags -/

/-- A name with one dash. -/
def isShort (name : List Char) : Bool := name.drop 1 |>.head? |>.any (· != '-')

/-- The flags in one argument: a short flag may be followed by the letters of others, and no flag takes
a value. -/
def flags (s : Switch) (name : List Char) : Option (List Char) → Except Ending (List Switch)
  | none => .ok [s]
  | some attached => follow s name attached
where
  follow (s : Switch) (name : List Char) : List Char → Except Ending (List Switch)
    | [] => .error (s.complaint "ignored explicit argument \x27\x27")
    | c :: rest =>
      let refusal :=
        s.complaint s!"ignored explicit argument {Text.quoted (String.ofList (c :: rest))}"
      if isShort name then
        match names.lookup (String.ofList ['-', c]), rest with
        | some next, [] => .ok [s, next]
        | some next, d :: more => do return s :: (← follow next ['-', c] (d :: more))
        | none, _ => .error refusal
      else .error refusal

/-- Applies flags in order; a request for help ends the reading. -/
def Options.applyFlags (o : Options) : List Switch → Except Ending Options
  | [] => .ok o
  | .help :: _ => .error .help
  | _ :: rest => { o with verbosity := o.verbosity + 1 }.applyFlags rest

/-! ## The command line -/

/-- Reads tokens one after the other: the options so far, and the arguments that nothing wanted. -/
def readTokens : List Token → Options → List String → Except Ending (Options × List String)
  | [], o, extras => .ok (o, extras)
  | .value s :: rest, o, extras => readTokens rest o (extras ++ [s])
  | .unknown s :: rest, o, extras => readTokens rest o (extras ++ [s])
  | .option (.field f) _ (some value) :: rest, o, extras => do
    readTokens rest (← o.set f (attachedValue value)) extras
  | .option (.field f) _ none :: .value s :: rest, o, extras => do
    readTokens rest (← o.set f (.given s)) extras
  | .option (.field f) _ none :: _, _, _ =>
    .error ((Switch.field f).complaint "expected one argument")
  | .option s name attached :: rest, o, extras => do
    let switches ← flags s name.toList (attached.map String.toList)
    readTokens rest (← o.applyFlags switches) extras

/-- **Reads a command line.** -/
def Options.read (arguments : List String) : Except Ending Options := do
  let (o, extras) ← readTokens (← tokens arguments) Options.plain []
  if extras.isEmpty then return o
  else
    let rest := " ".intercalate extras
    throw (.refused s!"unrecognized arguments: {rest}")

end Milp.CommandLine
