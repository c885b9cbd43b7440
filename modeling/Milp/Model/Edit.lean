import Milp.Model.Rows

/-!
# Edits

The eight operations that change a model, as data. `Edit.perform` carries one out on a model and the row
cache that it shares with others.
-/

namespace Milp

/-- **One operation on a model**, with its arguments as they came. -/
inductive Edit where
  | objective (coeffs : Arg)
  | columnBounds (lower upper : Arg)
  | columnStart (values : Arg)
  | columnInteger (flags : Arg)
  | denseRow (coeffs lo hi : Arg)
  | sparseRow (coeffs indices lo hi : Arg)
  | cachedRow (coeffs indices lo hi : Arg)
  | rows (rowCount starts indices coeffs lower upper : Arg)

namespace Edit

/-- The name of an operation in messages. -/
def name : Edit → String
  | objective _ => "set_objective"
  | columnBounds _ _ => "set_column_bounds"
  | columnStart _ => "set_column_start"
  | columnInteger _ => "set_column_integer"
  | denseRow _ _ _ => "add_dense_row"
  | sparseRow _ _ _ _ => "add_sparse_row"
  | cachedRow _ _ _ _ => "add_sparse_row_cached"
  | rows _ _ _ _ _ _ => "add_sparse_rows"

/-- The operation that an edit asks for. Its answer tells, for a row that was added through the cache, whether the
cache had it. -/
def operation : Edit → Operation Bench (Option Bool)
  | objective coeffs => do
    .onModel (.setObjective coeffs)
    return none
  | columnBounds lower upper => do
    .onModel (.setColumnBounds lower upper)
    return none
  | columnStart values => do
    .onModel (.setColumnStart values)
    return none
  | columnInteger flags => do
    .onModel (.setColumnInteger flags)
    return none
  | denseRow coeffs lo hi => do
    .onModel (.addDenseRow coeffs lo hi)
    return none
  | sparseRow coeffs indices lo hi => do
    .onModel (.addSparseRow coeffs indices lo hi)
    return none
  | cachedRow coeffs indices lo hi => do
    return some (← .addCachedRow coeffs indices lo hi)
  | rows rowCount starts indices coeffs lower upper => do
    .onModel (.addRows rowCount starts indices coeffs lower upper)
    return none

/-- **Carries out an edit.** Model and cache come back from a refusal as well, as the edit has left them. -/
def perform (edit : Edit) (b : Bench) : Bench × Except Error (Option Bool) := edit.operation.perform b

end Edit

end Milp
