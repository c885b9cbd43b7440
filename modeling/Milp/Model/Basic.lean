import Milp.Binary64.Sum
import Milp.Row.Cache

/-!
# Models

A model under construction: a fixed number of columns with bounds, objective coefficients and
integrality flags, perhaps start values, and rows with their bounds. The objective is maximized.
Numbers of size `infinity` or more mean "unbounded".

This module has the model itself, its creation and its reading; `Milp.Model.Columns` and
`Milp.Model.Rows` have the operations that fill it.
-/

namespace Milp

/-- **A constraint**: a row with a lower and an upper bound. -/
structure BoundedRow where
  row : Row
  lo : Binary64
  hi : Binary64
  deriving DecidableEq

/-- **A model.** All column vectors have `columns` entries. -/
structure Model where
  columns : Nat
  rowsHint : Nat
  infinity : Binary64
  lower : List Binary64
  upper : List Binary64
  objective : List Binary64
  integer : List Bool
  start : Option (List Binary64)
  rows : List BoundedRow
  frozen : Bool
  deriving DecidableEq

namespace Model

/-! ## Creation -/

/-- A model without rows: all columns run from zero to infinity, with objective zero. -/
def blank (columns rowsHint : Nat) (infinity : Binary64) : Model where
  columns := columns
  rowsHint := rowsHint
  infinity := infinity
  lower := List.replicate columns Binary64.zero
  upper := List.replicate columns infinity
  objective := List.replicate columns Binary64.zero
  integer := List.replicate columns false
  start := none
  rows := []
  frozen := false

/-- The integer part of a real number that is not negative. -/
def wholePart : Arg.Real → Except Error Nat
  | .int n => .ok n.toNat
  | .float x =>
    match x.truncate? with
    | some n => .ok n.toNat
    | none => .error (.fault .tooLarge)

/-- **A new model** with a number of columns, a guess at the number of rows, and the number from which
on values count as infinite. -/
def create (columns rowsHint infinity : Arg) : Except Error Model :=
  match columns.int? with
  | none => .error .columnsNotInteger
  | some n =>
    if n < 0 then .error (.columnsNegative n)
    else
      match rowsHint.real? with
      | none => .error (.fault .wrongKind)
      | some hint =>
        if !(Arg.Real.int 0).le hint then .error (.rowsHintNegative rowsHint)
        else do
          let hint ← wholePart hint
          let infinity ← infinity.toNumber
          checkEntries n.toNat
          return blank n.toNat hint infinity

/-! ## Reading -/

/-- Whether a number counts as infinite. -/
def isInfinite (m : Model) (x : Binary64) : Bool := m.infinity.le x.abs

/-- Whether an argument counts as infinite; it has to be a real number. -/
def argIsInfinite (m : Model) (a : Arg) : Except Error Bool :=
  match a.real? with
  | none => .error (.fault .wrongKind)
  | some r => .ok ((Arg.Real.float m.infinity).le r.abs)

/-- Every entry moved into its box. -/
def clipInto : List Binary64 → List Binary64 → List Binary64 → List Binary64
  | x :: xs, lo :: los, hi :: his => x.clip lo hi :: clipInto xs los his
  | _, _, _ => []

/-- **The fall-back point**: the start values if there are any, else zero, moved into the bounds. -/
def fallback (m : Model) : List Binary64 :=
  clipInto (m.start.getD (List.replicate m.columns Binary64.zero)) m.lower m.upper

/-- The entries of a vector at the columns of a row. -/
def gather (point : List Binary64) (indices : List Int64) : Except Error (List Binary64) :=
  indices.mapM fun i =>
    match point[i.toInt.toNat]? with
    | some x => .ok x
    | none => .error (.fault .outOfBounds)

/-- **The value of every row** at a point. -/
def activity (m : Model) (dot : ScalarProduct) (point : List Binary64) : Except Error (List Binary64) :=
  m.rows.mapM fun r => do return dot r.row.coeffs (← gather point r.row.indices)

/-- Why a row has no value at an array of a shape that is no vector's: its columns lie beyond the first axis,
its size is not the length of the axis along which products would be summed, or the value is no number. -/
def shapeFault (shape : List Nat) (r : Row) : Fault :=
  if (shape.headD 0 : Int) ≤ r.maxIndex ∨ shape.isEmpty then .outOfBounds
  else if 3 ≤ shape.length ∧ shape[shape.length - 2]? ≠ some r.size then .unreadable
  else .wrongKind

/-- The value of every row at a point that comes as an array. Only a vector is a point: the first row
that looks into another array, if there is one, fails. -/
def activityAt (m : Model) (dot : ScalarProduct) (point : Grid Binary64) : Except Error (List Binary64) :=
  match point.shape, m.rows with
  | [_], _ => m.activity dot point.entries
  | _, [] => .ok []
  | shape, r :: _ => .error (.fault (shapeFault shape r.row))

/-! ## Freezing -/

/-- No change is accepted any more. -/
def freeze (m : Model) : Model := { m with frozen := true }

/-- What every operation begins with: a frozen model refuses it before anything else is looked at. -/
def checkMutable (m : Model) : Except Error Unit := if m.frozen then .error .frozen else .ok ()

end Model

end Milp
