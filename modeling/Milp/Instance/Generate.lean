import Milp.Binary64.Sum
import Milp.Instance.Basic
import Milp.Random.Congruential

/-!
# Generated instances

Random selection problems. Rows are drawn from a small pool of patterns, so that many of them have the
same left side. Every coefficient and bound of a row is positive, and a row's budget is a fraction of
the sum of its coefficients, so that zero is feasible and every column is bounded.

* `Shape.read` — what the parameters ask for, checked in the order in which they are needed.
* `Shape.draw` — the instance that a source draws.
* `Instance.generateFrom` — both, for any source, and `Instance.generate`, with draws from a seed.
-/

namespace Milp

/-- **Parameters** of generated instances, as the caller gave them. -/
structure Parameters where
  columns : Arg
  rows : Arg
  patterns : Arg
  density : Arg
  integerShare : Arg
  seed : Arg

/-- Eight patterns, each on a tenth of the columns, and integer columns only. -/
def Parameters.plain (columns rows seed : Arg) : Parameters where
  columns := columns
  rows := rows
  patterns := .int 8
  density := .float (Binary64.ofDecimal false 1 (-1))
  integerShare := .float Binary64.one
  seed := seed

/-- **What parameters ask for**: the numbers of columns, rows and patterns, the size of a pattern, and for
each column the threshold below which a draw makes it an integer column. The thresholds may have any
shape to which one draw for each column can be stretched. -/
structure Shape where
  columns : Nat
  rows : Nat
  patterns : Nat
  patternSize : Nat
  thresholds : Grid Arg.Real

namespace Shape

/-! ## Reading parameters -/

/-- An argument as a real number. -/
def realOf (a : Arg) : Except Error Arg.Real :=
  match a.real? with
  | some r => .ok r
  | none => .error (.fault .wrongKind)

/-- A positive number of columns, not yet known to be whole. -/
def readColumns (columns : Arg) : Except Error Unit := do
  if (← realOf columns).le (.int 0) then throw .columnsNotPositive

/-- A density above zero and at most one. -/
def readDensity (density : Arg) : Except Error Arg.Real := do
  let d ← realOf density
  if (Arg.Real.int 0).lt d && d.le (.int 1) then return d else throw .densityRange

/-- The number of columns of a pattern: the density times the number of columns, a half going to the
even neighbour, and at least one. -/
def patternSizeOf (density : Arg.Real) (columns : Nat) : Nat :=
  match density with
  | .int n => max 1 (n * columns).toNat
  | .float d => max 1 (((d.mul (Binary64.ofNat columns)).roundEven.truncate?.getD 0).toNat)

/-- The number of patterns: at least one; a number above one has to be an integer. -/
def readPatterns (patterns : Arg) : Except Error Nat := do
  match ← realOf patterns with
  | .int n => return max 1 n.toNat
  | .float x => if Binary64.one.lt x then throw (.fault .wrongKind) else return 1

/-- The number of rows, none if it is negative. -/
def readRows (rows : Arg) : Except Error Nat :=
  match rows.int? with
  | some n => .ok n.toNat
  | none => .error (.fault .wrongKind)

/-- A number of columns that is an integer and not a flag. -/
def wholeColumns : Arg → Except Error Nat
  | .int n => do
    checkEntries n.toNat
    return n.toNat
  | _ => .error (.fault .wrongKind)

/-- **The thresholds for integer columns**: a share for all columns, or an array of shares, stretched to
the shape that it has in common with the columns. Texts cannot be compared with numbers at all, also
inside of an array. -/
def readThresholds (columns : Nat) (share : Arg) : Except Error (Grid Arg.Real) :=
  match share with
  | .list _ =>
    match share.shape? with
    | none => .error (.fault .unreadable)
    | some shape =>
      match EntryType.common share.entries with
      | .text _ => .error .shareNotComparable
      | _ =>
        match Grid.commonShape? [columns] shape with
        | none => .error (.shapesDiffer [columns] shape)
        | some common => do
          let shares := (Grid.mk shape share.entries).stretched common
          return ⟨common, ← shares.entries.mapM realOf⟩
  | .text _ => .error .shareNotComparable
  | a => do
    let threshold ← realOf a
    let _ ← a.toNumber
    return .vector (List.replicate columns threshold)

variable {σ : Type}

/-- **The shape that parameters ask for**, and the state in which a source begins for their seed. -/
def read (start : Arg → Except Error σ) (p : Parameters) : Except Error (Shape × σ) := do
  readColumns p.columns
  let density ← readDensity p.density
  let s ← start p.seed
  let columns ← wholeColumns p.columns
  let thresholds ← readThresholds columns p.integerShare
  let patterns ← readPatterns p.patterns
  let rows ← readRows p.rows
  return (⟨columns, rows, patterns, patternSizeOf density columns, thresholds⟩, s)

/-! ## Drawing -/

/-- A number with one decimal place. -/
def tenths (n : Nat) : Binary64 := Binary64.ofDecimal false n (-1)

/-- A number drawn between two numbers and rounded to decimal places. -/
def drawRounded (source : Random.Source σ) (lo hi : Binary64) (places : Nat) (s : σ) :
    Binary64 × σ :=
  let (x, s) := source.uniform lo hi s
  (x.roundPlaces places, s)

/-- A pattern: columns in increasing order, and a coefficient between one and five for each. -/
def drawPattern (source : Random.Source σ) (shape : Shape) (s : σ) : Row × σ :=
  let (chosen, s) := source.choose shape.columns shape.patternSize s
  let (coeffs, s) :=
    Random.times (drawRounded source (Binary64.ofNat 1) (Binary64.ofNat 5) 2) shape.patternSize s
  (.ofArrays ((chosen.mergeSort (· ≤ ·)).map Int64.ofNat) coeffs, s)

/-- A row: one of the patterns, with a budget between a fifth and three fifths of the sum of its
coefficients. -/
def drawRow (source : Random.Source σ) (pool : List Row) (s : σ) : BoundedRow × σ :=
  let (position, s) := source.below pool.length s
  let row := pool.getD position (.ofArrays [] [])
  let (share, s) := source.uniform (tenths 2) (tenths 6) s
  (⟨row, Binary64.negInfinity, (share.mul (Binary64.sum row.coeffs)).roundPlaces 2⟩, s)

/-- **The instance that a source draws**: objective, integrality, upper bounds, patterns, rows. An
upper bound is drawn for every column; integer columns have the upper bound one. -/
def draw (source : Random.Source σ) (shape : Shape) (s : σ) : Instance × σ :=
  let (objective, s) :=
    Random.times (drawRounded source (Binary64.ofInt (-1)) (Binary64.ofNat 10) 3) shape.columns s
  let (shares, s) := Random.times source.unit shape.columns s
  let (uppers, s) :=
    Random.times (drawRounded source (Binary64.ofNat 1) (Binary64.ofNat 5) 3) shape.columns s
  let (pool, s) := Random.times (drawPattern source shape) shape.patterns s
  let (rows, s) := Random.times (drawRow source pool) shape.rows s
  let each := fun xs => (Grid.vector xs).stretched shape.thresholds.shape
  let integer := (each shares).zipWith (fun x t => (Arg.Real.float x).lt t) shape.thresholds
  ({ objective := objective
     lower := List.replicate shape.columns Binary64.zero
     upper := integer.zipWith (fun b u => if b then Binary64.one else u) (each uppers)
     integer := integer
     rows := rows }, s)

end Shape

/-- **The instance for parameters** from a source that begins anywhere. -/
def Instance.generateFrom {σ : Type} (source : Random.Source σ) (start : Arg → Except Error σ) (p : Parameters) :
    Except Error Instance := do
  let (shape, s) ← Shape.read start p
  return (shape.draw source s).1

/-- **The instance for parameters**, drawn from their seed. -/
def Instance.generate (p : Parameters) : Except Error Instance :=
  generateFrom Random.Congruential.source Random.Congruential.start p

end Milp
