import Milp.Model.Edit

/-!
# Instances

A selection problem outside of any model: objective, bounds and integrality of the columns, and rows
with their bounds. `Instance.batch` lays the rows out as one batch.

A `GivenInstance` is one that has not been looked at: its vectors are arrays of any shape, and its row
bounds are any arguments. Every instance can be given, see `Instance.given`.
-/

namespace Milp

/-- **An instance.** Upper bounds and integrality are arrays of one shape, which is that of the columns
unless an instance has been generated with thresholds of another one. -/
structure Instance where
  objective : List Binary64
  lower : List Binary64
  upper : Grid Binary64
  integer : Grid Bool
  rows : List BoundedRow
  deriving DecidableEq

namespace Instance

/-- The number of columns. -/
def columns (p : Instance) : Nat := p.objective.length

/-- The offsets of rows of given sizes laid out one after the other, from a first offset on. -/
def offsetsFrom (first : Int64) : List Row → List Int64
  | [] => [first]
  | r :: rest => first :: offsetsFrom (first + Int64.ofNat r.size) rest

/-- **The rows as one batch.** -/
def batch (p : Instance) : Model.Batch where
  starts := offsetsFrom 0 (p.rows.map (·.row))
  indices := p.rows.flatMap (·.row.indices)
  coeffs := p.rows.flatMap (·.row.coeffs)
  lower := p.rows.map (·.lo)
  upper := p.rows.map (·.hi)

end Instance

/-! ## Instances as they are given -/

/-- **A row as a caller gives it.** -/
structure GivenRow where
  indices : Grid Int64
  coeffs : Grid Binary64
  lo : Arg
  hi : Arg

/-- **An instance as a caller gives it.** -/
structure GivenInstance where
  objective : Grid Binary64
  lower : Grid Binary64
  upper : Grid Binary64
  integer : Grid Bool
  rows : List GivenRow

/-- A row with numbers for bounds, as it is given. -/
def BoundedRow.given (r : BoundedRow) : GivenRow :=
  ⟨.vector r.row.indices, .vector r.row.coeffs, .float r.lo, .float r.hi⟩

/-- **An instance as it is given.** -/
def Instance.given (p : Instance) : GivenInstance where
  objective := .vector p.objective
  lower := .vector p.lower
  upper := p.upper
  integer := p.integer
  rows := p.rows.map BoundedRow.given

end Milp
