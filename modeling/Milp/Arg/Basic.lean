import Milp.Decimal.Layout
import Milp.Decimal.Numeral
import Milp.Text.Quoted

/-!
# Arguments

What a caller hands in, before anything is known about it: nothing at all, a flag, an integer of any
size, a number, a text, a list or a record. The building operations read vectors, bounds and counts
out of arguments and refuse what does not fit; messages show arguments as they came.

* `Arg.shown` and `Arg.quoted` are the two ways a message shows an argument; they differ on texts.
* `Arg.real?` is an argument as a real number: a flag counts as zero or one.
* `Arg.same` and `Arg.atLeast` compare two arguments.
-/

namespace Milp

/-- **An argument** of unknown kind. -/
inductive Arg where
  | absent
  | flag (b : Bool)
  | int (n : Int)
  | float (x : Binary64)
  | text (s : String)
  | list (items : List Arg)
  | record (fields : List (String × Arg))

namespace Arg

instance : Inhabited Arg := ⟨absent⟩

/-- A list of numbers as an argument. -/
def ofFloats (xs : List Binary64) : Arg := list (xs.map float)

/-! ## As text -/

mutual

/-- **An argument in a message**, texts in quotes. -/
def quoted : Arg → String
  | absent => "None"
  | flag true => "True"
  | flag false => "False"
  | int n => toString n
  | float x => x.text
  | text s => Text.quoted s
  | list items => Text.bracketed (quotedItems items)
  | record fields => "\x7b" ++ ", ".intercalate (quotedFields fields) ++ "\x7d"

def quotedItems : List Arg → List String
  | [] => []
  | a :: rest => quoted a :: quotedItems rest

def quotedFields : List (String × Arg) → List String
  | [] => []
  | (k, a) :: rest => (Text.quoted k ++ ": " ++ quoted a) :: quotedFields rest

end

/-- An argument in a message, a text as it is. -/
def shown : Arg → String
  | text s => s
  | a => a.quoted

/-- The kind of an argument in messages. -/
def kind : Arg → String
  | absent => "NoneType"
  | flag _ => "bool"
  | int _ => "int"
  | float _ => "float"
  | text _ => "str"
  | list _ => "list"
  | record _ => "dict"

/-! ## As a real number -/

/-- A real number as callers write it: an integer of any size, or a number of the format. -/
inductive Real where
  | int (n : Int)
  | float (x : Binary64)
  deriving DecidableEq

/-- An argument as a real number, if it is one; a flag counts as zero or one. -/
def real? : Arg → Option Real
  | flag b => some (.int (if b then 1 else 0))
  | int n => some (.int n)
  | float x => some (.float x)
  | _ => none

/-- An argument as an integer, if it is one; a flag counts as zero or one. -/
def int? : Arg → Option Int
  | flag b => some (if b then 1 else 0)
  | int n => some n
  | _ => none

namespace Real

/-- **The place of a real number** on the line of integers, none for NaN. Integers are placed
exactly. -/
def place? : Real → Option Int
  | int n => some (Binary64.intPlace n)
  | float x => x.place?

/-- `a < b`; false when either is NaN. -/
def lt (a b : Real) : Bool :=
  match a, b with
  | int m, int n => decide (m < n)
  | a, b =>
    match a.place?, b.place? with
    | some p, some q => decide (p < q)
    | _, _ => false

/-- `a ≤ b`; false when either is NaN. -/
def le (a b : Real) : Bool :=
  match a, b with
  | int m, int n => decide (m ≤ n)
  | a, b =>
    match a.place?, b.place? with
    | some p, some q => decide (p ≤ q)
    | _, _ => false

/-- Equal as numbers; NaN equals nothing. -/
def same (a b : Real) : Bool :=
  match a, b with
  | int m, int n => decide (m = n)
  | a, b =>
    match a.place?, b.place? with
    | some p, some q => decide (p = q)
    | _, _ => false

def abs : Real → Real
  | int n => int n.natAbs
  | float x => float x.abs

/-- The next real number up by one. -/
def succ : Real → Real
  | int n => int (n + 1)
  | float x => float (x.add Binary64.one)

def text : Real → String
  | int n => toString n
  | float x => x.text

end Real

/-- Whether the argument is a real number equal to a count. -/
def isCount (a : Arg) (n : Nat) : Bool :=
  match a.real? with
  | some r => r.same (.int n)
  | none => false

/-- The integer that an argument is equal to, if there is one. -/
def whole? (a : Arg) : Option Int :=
  match a.real? with
  | some (.int n) => some n
  | some (.float x) => if x.isWhole then x.truncate? else none
  | none => none

/-! ## Comparisons -/

/-- Whether two arguments that hold no others are equal. Numbers of all kinds are equal by value. -/
def sameSingle (a b : Arg) : Bool :=
  match a, b with
  | absent, absent => true
  | text s, text t => s == t
  | a, b =>
    match a.real?, b.real? with
    | some r, some t => r.same t
    | _, _ => false

mutual

/-- **Equal arguments.** Lists are equal item by item, records member by member in any order. -/
def same : Arg → Arg → Bool
  | list xs, list ys => sameItems xs ys
  | record fs, record gs => fs.length == gs.length && sameMembers fs gs
  | a, b => sameSingle a b

def sameItems : List Arg → List Arg → Bool
  | [], [] => true
  | a :: xs, b :: ys => same a b && sameItems xs ys
  | _, _ => false

def sameMembers : List (String × Arg) → List (String × Arg) → Bool
  | [], _ => true
  | (k, a) :: fs, gs =>
    (match gs.lookup k with
      | some b => same a b
      | none => false) && sameMembers fs gs

end

/-- The order of two arguments that hold no others: numbers by value, texts by their characters. None
when they have no order. -/
def singleAtLeast (a b : Arg) : Option Bool :=
  match a, b with
  | text s, text t => some (decide (t ≤ s))
  | a, b =>
    match a.real?, b.real? with
    | some r, some t => some (t.le r)
    | _, _ => none

mutual

/-- **Whether one argument is at least as large as another**, none when they have no order. Lists are
compared at the first place where they differ. -/
def atLeast : Arg → Arg → Option Bool
  | list xs, list ys => itemsAtLeast xs ys
  | a, b => singleAtLeast a b

def itemsAtLeast : List Arg → List Arg → Option Bool
  | _, [] => some true
  | [], _ :: _ => some false
  | a :: xs, b :: ys => if same a b then itemsAtLeast xs ys else atLeast a b

end

end Arg

end Milp
