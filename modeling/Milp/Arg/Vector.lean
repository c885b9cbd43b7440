import Milp.Arg.Grid
import Milp.Error

/-!
# Vectors from arguments

An argument stands for an array when its lists nest evenly: all items of a list have the same shape.
This module finds the shape and the entries, converts entries to numbers, positions or flags, and
makes the checked vectors that models are built from.

* `Arg.shape?` — the lengths along the axes, none for ragged lists.
* `Arg.array` — the array that an argument is, its entries read in one of several ways.
* `numberVector`, `coefficientVector`, `indexVector`, `flagVector` — the four checked vectors.
-/

namespace Milp

namespace Arg

/-! ## Shape and entries -/

/-- The most axes an array can have. -/
def maxAxes : Nat := 64

mutual

/-- The lengths along the axes of evenly nested lists. A single value has no axis. -/
def nesting? : Arg → Option (List Nat)
  | list items => nestingOf? items
  | _ => some []

/-- The shape of a list of items, which must all have one shape. -/
def nestingOf? : List Arg → Option (List Nat)
  | [] => some [0]
  | a :: rest =>
    match nesting? a, nestingOf? rest with
    | some s, some (n :: t) => if rest.isEmpty || s = t then some ((n + 1) :: s) else none
    | _, _ => none

end

mutual

/-- The single values inside an argument, in order. -/
def entries : Arg → List Arg
  | list items => entriesOf items
  | a => [a]

def entriesOf : List Arg → List Arg
  | [] => []
  | a :: rest => entries a ++ entriesOf rest

end

/-- **The shape of an argument as an array**; none if its lists do not nest evenly or too deeply. -/
def shape? (a : Arg) : Option (List Nat) :=
  match a.nesting? with
  | some s => if s.length ≤ maxAxes then some s else none
  | none => none

/-! ## Single values -/

/-- A single value as a number. Text is read as a numeral. -/
def toNumber : Arg → Except Error Binary64
  | flag b => .ok (if b then Binary64.one else Binary64.zero)
  | int n => (Binary64.ofInt? n).elim (.error (.fault .tooLarge)) .ok
  | float x => .ok x
  | text s => (Numeral.number? s).elim (.error (.fault .unreadable)) .ok
  | _ => .error (.fault .wrongKind)

/-- An entry of an array as a number: a missing entry is NaN. -/
def toEntry : Arg → Except Error Binary64
  | absent => .ok Binary64.nan
  | a => a.toNumber

/-- A single value as a flag: zero, the empty text, the empty record and nothing are false. -/
def toFlag : Arg → Bool
  | absent => false
  | flag b => b
  | int n => n != 0
  | float x => !x.same Binary64.zero
  | text s => !s.isEmpty
  | list items => !items.isEmpty
  | record fields => !fields.isEmpty

/-- A single value as a position, fractions cut off. -/
def toPosition : Arg → Except Error Int64
  | flag b => .ok (if b then 1 else 0)
  | int n => inRange n
  | float x =>
    match x.truncate? with
    | some n => inRange n
    | none => .error (.fault (if x.isNaN then .unreadable else .tooLarge))
  | text s =>
    match Numeral.integer? s with
    | some n => inRange n
    | none => .error (.fault .unreadable)
  | _ => .error (.fault .wrongKind)
where
  inRange (n : Int) : Except Error Int64 :=
    if Int64.minValue.toInt ≤ n ∧ n ≤ Int64.maxValue.toInt then .ok (Int64.ofInt n)
    else .error (.fault .tooLarge)

end Arg

/-! ## Arrays -/

/-- The number of entries that no array of numbers can have. -/
def entryLimit : Nat := Nat.pow 2 60

/-- Refuses a number of entries that no array can have. -/
def checkEntries (n : Nat) : Except Error Unit :=
  if n < entryLimit then .ok () else .error (.tooManyEntries n)

namespace Arg

/-- The array that an argument is, its entries read one after the other. The first entry that cannot be
used decides the error. -/
def array {α : Type} (read : Arg → Except Error α) (a : Arg) : Except Error (Grid α) :=
  match a.shape? with
  | none => .error (.fault .unreadable)
  | some shape => do return ⟨shape, ← a.entries.mapM read⟩

/-- **An argument as an array of numbers.** -/
def numberArray (a : Arg) : Except Error (Grid Binary64) := a.array toEntry

/-- An argument as an array of positions. -/
def positionArray (a : Arg) : Except Error (Grid Int64) := a.array toPosition

/-- An argument as an array of flags. -/
def flagArray (a : Arg) : Except Error (Grid Bool) := a.array fun e => .ok e.toFlag

end Arg

/-! ## Common type of entries -/

/-- **The type that an array of mixed entries gets** when none is asked for. -/
inductive EntryType where
  | flag
  | signed
  | unsigned
  | float
  | text (length : Nat)
  | mixed
  deriving DecidableEq

namespace EntryType

/-- The type of a single value. An integer is signed when it fits 64 bits with a sign, unsigned when
it only fits without one. -/
def ofArg : Arg → EntryType
  | .flag _ => flag
  | .int n =>
    if Int64.minValue.toInt ≤ n ∧ n ≤ Int64.maxValue.toInt then signed
    else if 0 ≤ n ∧ n < Nat.pow 2 64 then unsigned
    else mixed
  | .float _ => float
  | .text s => text s.length
  | _ => mixed

/-- How many characters a value of the type may need as text. -/
def textLength : EntryType → Nat
  | flag => 5
  | signed => 21
  | unsigned => 20
  | float => 32
  | text n => n
  | mixed => 0

/-- **The least type that holds values of both types.** Signed and unsigned integers meet in numbers;
text takes in everything that can be written. -/
def join : EntryType → EntryType → EntryType
  | mixed, _ => mixed
  | _, mixed => mixed
  | text n, t => text (max n t.textLength)
  | t, text n => text (max t.textLength n)
  | flag, t => t
  | t, flag => t
  | signed, signed => signed
  | unsigned, unsigned => unsigned
  | _, _ => float

/-- The name of a type in messages. -/
def name : EntryType → String
  | flag => "bool"
  | signed => "int64"
  | unsigned => "uint64"
  | float => "float64"
  | text n => s!"<U{max n 1}"
  | mixed => "object"

/-- The common type of the entries of an array; numbers when there are none. -/
def common : List Arg → EntryType
  | [] => float
  | a :: rest => rest.foldl (fun t b => t.join (ofArg b)) (ofArg a)

end EntryType

/-! ## Checked vectors -/

/-- A failed conversion to numbers as a refusal of the vector. Integers beyond the format stay what
they are. -/
def asVectorError (name : String) : Error → Error
  | .fault .tooLarge => .fault .tooLarge
  | _ => .notNumeric name

/-- **A vector of numbers** of a given length, without NaN. -/
def numberVector (values expected : Arg) (name : String) : Except Error (List Binary64) :=
  match values.numberArray with
  | .error e => .error (asVectorError name e)
  | .ok ⟨[n], xs⟩ =>
    if !expected.isCount n then .error (.wrongCount name n expected)
    else if xs.any Binary64.isNaN then .error (.holdsNaN name)
    else .ok xs
  | .ok ⟨shape, _⟩ => .error (.notOneDimensional name shape)

/-- **A vector of coefficients** of any length; an empty array of any shape is the empty vector. -/
def coefficientVector (values : Arg) (name : String) : Except Error (List Binary64) :=
  match values.numberArray with
  | .error e => .error (asVectorError name e)
  | .ok ⟨shape, xs⟩ =>
    if Grid.volume shape = 0 then .ok []
    else if shape.length = 1 then .ok xs
    else .error (.notOneDimensional name shape)

/-- A whole number as a position; what does not fit becomes the least position. -/
def wholePosition (x : Binary64) : Int64 :=
  match x.truncate? with
  | some n =>
    if Int64.minValue.toInt ≤ n ∧ n ≤ Int64.maxValue.toInt then Int64.ofInt n else Int64.minValue
  | none => Int64.minValue

/-- The entries of a vector of integers as positions. Unsigned integers wrap, numbers must all be
whole. -/
def positions (name : String) (type : EntryType) (items : List Arg) : Except Error (List Int64) :=
  match type with
  | .signed | .unsigned => .ok (items.map fun a => Int64.ofInt (a.int?.getD 0))
  | .float =>
    match items.mapM Arg.toEntry with
    | .error e => .error e
    | .ok xs =>
      if xs.all Binary64.isWhole then .ok (xs.map wholePosition) else .error (.notIntegers name)
  | t => .error (.notIntegerType name t.name)

/-- **A vector of column indices or offsets** of any length. -/
def indexVector (values : Arg) (name : String) : Except Error (List Int64) :=
  match values.shape? with
  | none => .error (.notIndices name)
  | some shape =>
    if Grid.volume shape = 0 then .ok []
    else if shape.length = 1 then positions name (EntryType.common values.entries) values.entries
    else .error (.notOneDimensional name shape)

/-- **A vector of flags** of a given length. -/
def flagVector (values : Arg) (expected : Nat) : Except Error (List Bool) :=
  match values.flagArray with
  | .error e => .error e
  | .ok ⟨[n], flags⟩ => if n = expected then .ok flags else .error (.flagsCount n expected)
  | .ok _ => .error .flagsNotOneDimensional

/-- **All entries are finite.** -/
def checkFinite (xs : List Binary64) (name : String) : Except Error Unit :=
  if xs.all Binary64.isFinite then .ok () else .error (.notFinite name)

end Milp
