import Milp.Binary64.Arith
import Milp.Text.Characters

/-!
# Numerals

Reading numbers from text. Blanks may surround a numeral, digits may come from any script, and a
single underscore may stand between two digits. An integer is a run of digits with an optional sign; a
number may also have a point and an exponent, or be an infinity or NaN by name, in any case of
letters.

* `integer?` and `number?` read decimal numerals; an integer is limited in its digits.
* `hexadecimal?` reads a natural number in base sixteen.
-/

namespace Milp.Numeral

open Milp.Text

/-! ## Preparation -/

/-- The character that stands for `c` in a numeral: digits of any script become ASCII digits, blanks
become spaces. -/
def plainChar (c : Char) : Char :=
  if c.toNat < 128 then c
  else if isBlank c then ' '
  else match decimalDigit? c with
    | some d => Char.ofNat (48 + d)
    | none => c

/-- The characters of a numeral without the blanks around it. -/
def core (s : String) : List Char :=
  let cs := (s.toList.map plainChar).dropWhile isAsciiBlank
  (cs.reverse.dropWhile isAsciiBlank).reverse

def isDigit (c : Char) : Bool := '0' ≤ c && c ≤ '9'

def digitValue (c : Char) : Nat := c.toNat - 48

/-- The value of a run of digits. -/
def digitsValue (ds : List Char) : Nat := ds.foldl (fun n c => 10 * n + digitValue c) 0

/-- Takes out underscores, each of which has to stand between two digits of a kind. `afterDigit` says
whether the last character was a digit. -/
def dropUnderscores (isDigit : Char → Bool) (afterDigit : Bool) : List Char → Option (List Char)
  | [] => some []
  | '_' :: c :: rest =>
    if afterDigit && isDigit c then (dropUnderscores isDigit true rest).map (c :: ·) else none
  | '_' :: [] => none
  | c :: rest => (dropUnderscores isDigit (isDigit c) rest).map (c :: ·)

/-- An optional sign: whether it is a minus, and the rest. -/
def takeSign : List Char → Bool × List Char
  | '-' :: rest => (true, rest)
  | '+' :: rest => (false, rest)
  | cs => (false, cs)

/-- A non-empty run of digits and nothing else. -/
def natural? (cs : List Char) : Option Nat :=
  if cs.isEmpty || !cs.all isDigit then none else some (digitsValue cs)

/-! ## Integers -/

/-- The most digits that the text of an integer may have. -/
def digitLimit : Nat := 4300

/-- **The integer that a text holds**, if it holds one and does not have too many digits. -/
def integer? (s : String) : Option Int := do
  let (negative, cs) := takeSign (core s)
  let digits ← dropUnderscores isDigit false cs
  if digitLimit < digits.length then none
  else
    let n ← natural? digits
    return if negative then -(n : Int) else n

/-- The value of a hexadecimal digit, in either case. -/
def hexDigit? (c : Char) : Option Nat :=
  if isDigit c then some (digitValue c)
  else if 'a' ≤ c.toLower ∧ c.toLower ≤ 'f' then some (c.toLower.toNat - 87)
  else none

/-- **The natural number that a text holds in base sixteen**, behind its mark `0x`. An underscore may
follow the mark. -/
def hexadecimal? (s : String) : Option Nat :=
  match core s with
  | '0' :: 'x' :: cs => do
    let digits ← dropUnderscores (fun c => (hexDigit? c).isSome) true cs
    if digits.isEmpty then none
    else return (← digits.mapM hexDigit?).foldl (fun n d => 16 * n + d) 0
  | _ => none

/-! ## Numbers -/

/-- The exponent after a significand: nothing, or the letter and an integer. -/
def exponent? : List Char → Option Int
  | [] => some 0
  | c :: rest =>
    if c == 'e' || c == 'E' then
      let (negative, cs) := takeSign rest
      (natural? cs).map fun n => if negative then -(n : Int) else n
    else none

/-- Digits with an optional point and exponent. -/
def decimal? (negative : Bool) (cs : List Char) : Option Binary64 := do
  let whole := cs.takeWhile isDigit
  let rest := cs.dropWhile isDigit
  let (fraction, tail) := match rest with
    | '.' :: r => (r.takeWhile isDigit, r.dropWhile isDigit)
    | r => ([], r)
  if whole.isEmpty && fraction.isEmpty then none
  else
    let e ← exponent? tail
    return Binary64.ofDecimal negative (digitsValue (whole ++ fraction)) (e - fraction.length)

/-- An infinity or NaN by name. -/
def named? (negative : Bool) (cs : List Char) : Option Binary64 :=
  let name := String.ofList (cs.map Char.toLower)
  if name == "inf" || name == "infinity" then some (Binary64.infinite negative)
  else if name == "nan" then some Binary64.nan
  else none

/-- **The number that a text holds**, if it holds one. -/
def number? (s : String) : Option Binary64 := do
  let (negative, cs) := takeSign (← dropUnderscores isDigit false (core s))
  match named? negative cs with
  | some x => some x
  | none => decimal? negative cs

end Milp.Numeral
