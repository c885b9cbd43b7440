import Milp.Log.Directive
import Milp.Log.Record
import Milp.Text.Words

/-!
# Formats of log lines

How a record becomes a line: a text with directives in it, each of which puts in a field of the record.
A format is accepted when it has at least one directive with a plain name. That does not make it
sound: a text that breaks off inside of a directive, a field that records lack, or a conversion that
does not fit its field leave a record without a line.

* `Format.isAccepted` — the check when a format is set up.
* `Format.line?` — the line of a record.
-/

namespace Milp.Log

/-- **A piece of a format**: a character, or a directive. -/
inductive Piece where
  | text (c : Char)
  | directive (d : Directive)
  deriving DecidableEq

/-- **A format**: its pieces, or none if its text cannot be taken apart. -/
abbrev Format := Option (List Piece)

namespace Format

/-! ## Accepting -/

/-- A decimal digit of any script. -/
def isDigit (c : Char) : Bool := (Text.decimalDigit? c).isSome

/-- What stands behind a count: a run of digits, or a star. -/
def dropCount : List Char → List Char
  | '*' :: rest => rest
  | cs => cs.dropWhile isDigit

/-- What stands behind a precision. A point alone is none. -/
def dropPrecision : List Char → List Char
  | '.' :: '*' :: rest => rest
  | '.' :: c :: rest => if isDigit c then rest.dropWhile isDigit else '.' :: c :: rest
  | cs => cs

/-- The letters that may end a directive, in either case. The last three are taken for letters of
another case, too. -/
def endings : List Char :=
  "diouxefgcrsa%DIOUXEFGCRSA".toList ++ [Char.ofNat 0x130, Char.ofNat 0x131, Char.ofNat 0x17f]

/-- Whether a directive with a plain name stands behind its opening `%(`. -/
def opensDirective (cs : List Char) : Bool :=
  match cs.takeWhile Text.isWordCharacter, cs.dropWhile Text.isWordCharacter with
  | _ :: _, ')' :: rest =>
    match dropPrecision (dropCount (rest.dropWhile Directive.isFlag)) with
    | c :: _ => endings.contains c
    | [] => false
  | _, _ => false

/-- **A format is accepted** when it has a directive with a plain name somewhere. -/
def isAccepted : List Char → Bool
  | '%' :: '(' :: rest => opensDirective rest || isAccepted ('(' :: rest)
  | _ :: rest => isAccepted rest
  | [] => false

/-! ## Reading -/

/-- Takes a format apart; `fuel` is at least the number of characters. -/
def readFrom : Nat → List Char → Format
  | _, [] => some []
  | 0, _ :: _ => none
  | fuel + 1, '%' :: '%' :: rest => (readFrom fuel rest).map (.text '%' :: ·)
  | fuel + 1, '%' :: rest => do
    let (d, rest) ← Directive.read? rest
    return .directive d :: (← readFrom fuel rest)
  | fuel + 1, c :: rest => (readFrom fuel rest).map (.text c :: ·)

/-- **Takes a text apart.** Two percent signs stand for one. -/
def ofText (s : String) : Format := readFrom s.length s.toList

/-- The format of a text, if it is accepted. -/
def read (s : String) : Option Format :=
  if isAccepted s.toList then some (ofText s) else none

/-! ## Fields -/

/-- The fields of a record. Its time and place are not kept: they are empty, or zero. -/
def fields (r : Record) : List (String × Value) :=
  let text := fun s => Value.arg (.text s)
  let count := Value.arg (.int 0)
  let time := Value.arg (.float Binary64.zero)
  [("name", text r.logger), ("msg", .arg r.message), ("args", .shown "()"),
   ("levelname", text (levelName r.level)), ("levelno", .arg r.level.arg), ("pathname", text ""),
   ("filename", text ""), ("module", text ""), ("exc_info", .arg .absent), ("exc_text", .arg .absent),
   ("stack_info", .arg .absent), ("lineno", count), ("funcName", text ""), ("created", time),
   ("msecs", time), ("relativeCreated", time), ("thread", count), ("threadName", text "MainThread"),
   ("processName", text "MainProcess"), ("process", count), ("message", text r.text),
   ("asctime", text "")]

/-- All fields of a record in one text. -/
def allFields (r : Record) : Value :=
  let members := (fields r).map fun p => Text.quoted p.1 ++ ": " ++ Directive.quoted p.2
  .shown ("\x7b" ++ ", ".intercalate members ++ "\x7d")

/-! ## Lines -/

/-- The value that a directive asks for. `used` says whether an earlier directive has taken one: the
whole record can only be taken first. -/
def value? (r : Record) (used : Bool) (d : Directive) : Option Value :=
  match d.key? with
  | some key => (fields r).lookup key
  | none => if used then none else some (allFields r)

/-- The line that pieces give for a record. -/
def write? (r : Record) : Bool → List Piece → Option (List Char)
  | _, [] => some []
  | used, .text c :: rest => (write? r used rest).map (c :: ·)
  | used, .directive d :: rest => do
    let value ← value? r used d
    return (← d.write? value) ++ (← write? r true rest)

/-- **The line of a record**, if the format has one for it. -/
def line? (f : Format) (r : Record) : Option String := do
  return String.ofList (← write? r false (← f))

/-- The format when none is given: time, logger, level and text. -/
def plain : Format := ofText "%(asctime)s - %(name)s - %(levelname)s - %(message)s"

/-- The format that shows nothing but the text. -/
def bare : Format := ofText "%(message)s"

end Format

end Milp.Log
