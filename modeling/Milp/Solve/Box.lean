import Milp.Solve.Outcome

/-!
# Models without constraints

When no row constrains the columns, every column can be put at its best place by itself: at its upper
bound when its objective is positive, at its lower bound when it is negative, and as near to zero as
the bounds allow when it is zero. Integer columns have their bounds rounded inwards first.
-/

namespace Milp.Model

/-- The lower bound of a column, rounded up for an integer column. -/
def ColumnData.innerLower (c : ColumnData) : Binary64 :=
  if c.integer && c.lower.isFinite then c.lower.ceil else c.lower

/-- The upper bound of a column, rounded down for an integer column. -/
def ColumnData.innerUpper (c : ColumnData) : Binary64 :=
  if c.integer && c.upper.isFinite then c.upper.floor else c.upper

/-- No value lies between the rounded bounds. -/
def ColumnData.isEmpty (c : ColumnData) : Bool := c.innerUpper.lt c.innerLower

/-- The objective grows toward a side of the column that has no end. -/
def ColumnData.isUnbounded (c : ColumnData) : Bool :=
  (Binary64.zero.lt c.objective && c.innerUpper.isInfinite) ||
    (c.objective.lt Binary64.zero && c.innerLower.isInfinite)

/-- **The best value of a column.** -/
def ColumnData.best (c : ColumnData) : Binary64 :=
  if c.objective.lt Binary64.zero then c.innerLower
  else if Binary64.zero.lt c.objective then c.innerUpper
  else Binary64.zero.clip c.innerLower c.innerUpper

/-- **The outcome for a model whose rows do not matter.** -/
def solveBox (m : Model) : Outcome :=
  if m.columnData.any ColumnData.isEmpty then
    ⟨.infeasible, m.fallback, "empty integer range", Binary64.zero, none⟩
  else if m.columnData.any ColumnData.isUnbounded then
    ⟨.unbounded, m.fallback, "objective grows without bound", Binary64.zero, none⟩
  else ⟨.optimal, m.columnData.map ColumnData.best, "box optimum", Binary64.zero, none⟩

end Milp.Model
