import Milp.Model.Operation

/-!
# Columns of a model

The four operations that replace a column vector: objective, bounds, start values and integrality
flags. Each checks all of its arguments before it changes anything.
-/

namespace Milp

/-- The columns whose lower bound lies above the upper one, with both bounds. -/
def Model.crossedBounds (lower upper : List Binary64) : List (Nat × Binary64 × Binary64) :=
  ((lower.zip upper).zipIdx.filter fun p => p.1.2.lt p.1.1).map fun p => (p.2, p.1)

namespace Operation

/-- **Sets the objective**: one finite coefficient per column. -/
def setObjective (coeffs : Arg) : Operation Model Unit := do
  let m ← get
  m.checkMutable
  let objective ← numberVector coeffs (.int m.columns) "objective"
  checkFinite objective "objective"
  modify fun m => { m with objective := objective }

/-- **Sets the bounds of all columns.** A lower bound has to lie below infinity, an upper bound above
minus infinity, and no lower bound above its upper one. What lies beyond infinity is moved to it. -/
def setColumnBounds (lower upper : Arg) : Operation Model Unit := do
  let m ← get
  m.checkMutable
  let los ← numberVector lower (.int m.columns) "column lower bounds"
  let his ← numberVector upper (.int m.columns) "column upper bounds"
  if los.any fun x => m.infinity.le x then throw .columnLowerInfinite
  if his.any fun x => x.le m.infinity.neg then throw .columnUpperInfinite
  match Model.crossedBounds los his with
  | (column, lo, hi) :: rest => throw (.columnBoundsCrossed column lo hi (rest.length + 1))
  | [] =>
    modify fun m => { m with lower := los.map fun x => x.maximum m.infinity.neg }
    modify fun m => { m with upper := his.map fun x => x.minimum m.infinity }

/-- **Sets start values**: one finite number per column, not bound by the column's bounds. -/
def setColumnStart (values : Arg) : Operation Model Unit := do
  let m ← get
  m.checkMutable
  let start ← numberVector values (.int m.columns) "column start values"
  checkFinite start "column start values"
  modify fun m => { m with start := some start }

/-- **Sets the integrality flags**, one per column. -/
def setColumnInteger (flags : Arg) : Operation Model Unit := do
  let m ← get
  m.checkMutable
  let integer ← flagVector flags m.columns
  modify fun m => { m with integer := integer }

end Operation

end Milp
