import Milp.Arg.Vector
import Milp.Decimal.Styled

/-!
# Directives

The places in a format where a value goes: a percent sign, the name of a field in parentheses, flags, a
least width, a precision and the letter of a conversion, as in `%(levelno)03d`.

* `Directive.read?` reads a directive behind its percent sign.
* `Directive.write?` writes a value the way a directive asks for, if the value fits its conversion.
-/

namespace Milp.Log

/-- **A directive.** -/
structure Directive where
  /-- the name of the field; without one the directive asks for the whole record -/
  key? : Option String
  /-- the value goes to the left of its width -/
  left : Bool
  /-- numbers are filled up with zeros -/
  zeros : Bool
  /-- positive numbers have a plus sign -/
  plus : Bool
  /-- positive numbers have a blank for a sign -/
  blank : Bool
  /-- the form with a mark: a letter for the base, or the point of a whole number -/
  marked : Bool
  width : Nat
  precision? : Option Nat
  conversion : Char
  deriving DecidableEq

/-- **What a field holds**: an argument, or something that can be shown but not taken for a number. -/
inductive Value where
  | arg (a : Arg)
  | shown (s : String)

namespace Directive

/-! ## Reading -/

/-- A name up to the parenthesis that closes it. Parentheses inside of the name go in pairs; `depth`
counts the open ones. -/
def takeKey (depth : Nat) : List Char → Option (List Char × List Char)
  | [] => none
  | ')' :: rest =>
    match depth with
    | 0 => some ([], rest)
    | d + 1 => (takeKey d rest).map fun p => (')' :: p.1, p.2)
  | '(' :: rest => (takeKey (depth + 1) rest).map fun p => ('(' :: p.1, p.2)
  | c :: rest => (takeKey depth rest).map fun p => (c :: p.1, p.2)

/-- The name in front of a directive's flags, if there is one. -/
def readKey : List Char → Option (Option String × List Char)
  | '(' :: rest => (takeKey 0 rest).map fun p => (some (String.ofList p.1), p.2)
  | cs => some (none, cs)

def isFlag (c : Char) : Bool := c == '#' || c == '0' || c == '+' || c == ' ' || c == '-'

/-- The widest that a value can be asked to be. -/
def widthLimit : Nat := Nat.pow 2 63 - 1

/-- The largest precision. -/
def precisionLimit : Nat := Nat.pow 2 31 - 1

/-- A run of ASCII digits as a number up to a limit; no digits are zero. -/
def readCount (limit : Nat) (cs : List Char) : Option (Nat × List Char) :=
  let n := Numeral.digitsValue (cs.takeWhile Numeral.isDigit)
  if n ≤ limit then some (n, cs.dropWhile Numeral.isDigit) else none

/-- The precision behind a point, if there is a point. -/
def readPrecision : List Char → Option (Option Nat × List Char)
  | '.' :: rest => (readCount precisionLimit rest).map fun p => (some p.1, p.2)
  | cs => some (none, cs)

/-- A size letter in front of a conversion means nothing. -/
def dropSize : List Char → List Char
  | c :: rest => if c == 'h' || c == 'l' || c == 'L' then rest else c :: rest
  | [] => []

/-- **Reads a directive** behind its percent sign: the directive, and the rest of the format. Widths and
precisions that are to be taken from a value are refused, since no field holds one. -/
def read? (cs : List Char) : Option (Directive × List Char) := do
  let (key?, cs) ← readKey cs
  let flags := cs.takeWhile isFlag
  let (width, cs) ← readCount widthLimit (cs.dropWhile isFlag)
  let (precision?, cs) ← readPrecision cs
  match dropSize cs with
  | [] => none
  | conversion :: rest =>
    return ({ key? := key?
              left := flags.contains '-'
              zeros := flags.contains '0'
              plus := flags.contains '+'
              blank := flags.contains ' '
              marked := flags.contains '#'
              width := width
              precision? := precision?
              conversion := conversion }, rest)

/-! ## Writing -/

/-- A text filled up with blanks to the width. -/
def pad (d : Directive) (s : List Char) : List Char :=
  let blanks := List.replicate (d.width - s.length) ' '
  if d.left then s ++ blanks else blanks ++ s

/-- A text cut to the precision. -/
def cut (d : Directive) (s : List Char) : List Char :=
  match d.precision? with
  | some n => s.take n
  | none => s

/-- The sign of a number. -/
def sign (d : Directive) (negative : Bool) : List Char :=
  if negative then ['-'] else if d.plus then ['+'] else if d.blank then [' '] else []

/-- A number of a sign, a mark for its base and digits, filled up to the width: with zeros behind the
mark, or with blanks around everything. -/
def number (d : Directive) (negative : Bool) (mark digits : List Char) : List Char :=
  let front := d.sign negative ++ mark
  if d.zeros && !d.left then
    front ++ Decimal.leading (d.width - front.length) digits
  else d.pad (front ++ digits)

/-- An integer in a base, with at least as many digits as the precision says. -/
def integer (d : Directive) (base : Nat) (mark : List Char) (n : Int) : List Char :=
  d.number (decide (n < 0)) (if d.marked then mark else [])
    (Decimal.leading (d.precision?.getD 0) (Nat.toDigits base n.natAbs))

/-- Letters in upper case. -/
def upper (s : List Char) : List Char := s.map Char.toUpper

/-- A number of the format in a style; six is the precision when none is given. -/
def float (d : Directive) (style : Decimal.Style) (x : Binary64) : List Char :=
  d.number x.isNegative [] (x.abs.styled style d.marked (d.precision?.getD 6)).toList

/-- A value as text. -/
def shown : Value → String
  | .arg a => a.shown
  | .shown s => s

/-- A value as text, texts in quotes. -/
def quoted : Value → String
  | .arg a => a.quoted
  | .shown s => s

/-- A value as an integer; numbers lose their fraction. -/
def whole? : Value → Option Int
  | .arg (.float x) => x.truncate?
  | .arg a => a.int?
  | .shown _ => none

/-- A value as an integer, if it is one. -/
def int? : Value → Option Int
  | .arg a => a.int?
  | .shown _ => none

/-- A value as a number of the format. -/
def float? : Value → Option Binary64
  | .arg a => if a.real?.isSome then a.toNumber.toOption else none
  | .shown _ => none

/-- A value as a single character: the character with this code, or a text of one character. -/
def character? : Value → Option Char
  | .arg (.text s) =>
    match s.toList with
    | [c] => some c
    | _ => none
  | v => do
    let n ← int? v
    if 0 ≤ n ∧ n.toNat.isValidChar then some (Char.ofNat n.toNat) else none

/-- **Writes a value**, if it fits the conversion. -/
def write? (d : Directive) (v : Value) : Option (List Char) :=
  match d.conversion with
  | 's' => some (d.pad (d.cut (shown v).toList))
  | 'r' => some (d.pad (d.cut (quoted v).toList))
  | 'a' => some (d.pad (d.cut (Text.asciiOnly (quoted v).toList)))
  | 'd' | 'i' | 'u' => (whole? v).map (d.integer 10 [])
  | 'o' => (int? v).map (d.integer 8 ['0', 'o'])
  | 'x' => (int? v).map (d.integer 16 ['0', 'x'])
  | 'X' => (int? v).map fun n => upper (d.integer 16 ['0', 'x'] n)
  | 'e' => (float? v).map (d.float .scientific)
  | 'E' => (float? v).map fun x => upper (d.float .scientific x)
  | 'f' => (float? v).map (d.float .fixed)
  | 'F' => (float? v).map fun x => upper (d.float .fixed x)
  | 'g' => (float? v).map (d.float .general)
  | 'G' => (float? v).map fun x => upper (d.float .general x)
  | 'c' => (character? v).map fun c => d.pad [c]
  | _ => none

end Directive

end Milp.Log
