import Milp.Model.Columns

/-!
# Rows of a model

Four ways to add constraints: from a full vector, from columns and coefficients, from columns and
coefficients through a shared row cache, and many rows at once from three flat vectors. All of them
check everything before the model changes; a batch is added as a whole or not at all.
-/

namespace Milp

/-- A row behind the others. -/
def Model.append (m : Model) (row : Row) (lo hi : Binary64) : Model :=
  { m with rows := m.rows ++ [⟨row, lo, hi⟩] }

/-! ## One row -/

namespace Operation

/-- A row behind the others. -/
def append (row : Row) (lo hi : Binary64) : Operation Model Unit := modify fun m => m.append row lo hi

/-- **Adds a row given as a full vector.** Only its nonzeros are kept. -/
def addDenseRow (coeffs lo hi : Arg) : Operation Model Unit := do
  let m ← get
  m.checkMutable
  let dense ← numberVector coeffs (.int m.columns) "dense row"
  checkFinite dense "dense row"
  let (lo, hi) ← rowBounds lo hi
  append (Row.ofDense dense) lo hi

/-- **Adds a row given by columns and coefficients**, kept in the given order. -/
def addSparseRow (coeffs indices lo hi : Arg) : Operation Model Unit := do
  let m ← get
  m.checkMutable
  let coeffs ← coefficientVector coeffs "sparse row coefficients"
  let indices ← indexVector indices "sparse row indices"
  checkPattern indices coeffs m.columns .absent
  let (lo, hi) ← rowBounds lo hi
  append (.ofArrays indices coeffs) lo hi

end Operation

/-! ## A row through the cache -/

/-- The validator of a model: a new pattern has to fit its columns. -/
def Model.validator (m : Model) : Validator :=
  Validator.ofCheck fun p => p.check (.int m.columns) .absent

/-- What a cached row is made of, before the cache is asked: both vectors, of one length, and the
bounds. -/
def Model.readCachedRow (m : Model) (coeffs indices lo hi : Arg) :
    Except Error (Row × Binary64 × Binary64) := do
  m.checkMutable
  let coeffs ← coefficientVector coeffs "sparse row coefficients"
  let indices ← indexVector indices "sparse row indices"
  if indices.length ≠ coeffs.length then
    throw (.patternLengths indices.length coeffs.length .absent)
  let (lo, hi) ← rowBounds lo hi
  return (.ofArrays indices coeffs, lo, hi)

/-- **Adds a row through the row cache**, and says whether the cache had it. A row that the cache had
was checked by the model that brought it in, which may have been wider: its largest column is checked
again. -/
def Operation.addCachedRow (coeffs indices lo hi : Arg) : Operation Bench Bool := do
  let m := (← get).model
  let (row, lo, hi) ← m.readCachedRow coeffs indices lo hi
  let (stored, hit) ← onCache fun cache => cache.getOrInsert m.validator (.ofRow row)
  if hit && decide ((m.columns : Int) ≤ stored.row.maxIndex) then
    throw (.cachedIndexRange m.columns stored.row.maxIndex)
  onModel (append stored.row lo hi)
  return hit

/-! ## A batch of rows -/

namespace Model

/-- Where a slice begins or ends in a list of `n` entries: negative offsets count from the end, and
offsets beyond either end stop there. -/
def clampOffset (n : Nat) (k : Int) : Nat :=
  if k < 0 then (k + n).toNat else min k.toNat n

/-- **The entries from one offset up to another.** -/
def slice {α : Type} (xs : List α) (b e : Int) : List α :=
  let first := clampOffset xs.length b
  (xs.drop first).take (clampOffset xs.length e - first)

/-- Consecutive offsets do not decrease; differences are taken in 64 bits. -/
def nonDecreasing : List Int64 → Bool
  | a :: b :: rest => decide (0 ≤ b - a) && nonDecreasing (b :: rest)
  | _ => true

/-- **Cuts a batch into rows**, one for each pair of neighbouring offsets. Each row is checked like a
single one; `row` counts them for messages. -/
def cutRows (columns : Nat) (indices : List Int64) (coeffs : List Binary64) :
    Nat → List Int64 → List Binary64 → List Binary64 → Except Error (List BoundedRow)
  | row, b :: e :: starts, lo :: los, hi :: his => do
    let rowIndices := slice indices b.toInt e.toInt
    let rowCoeffs := slice coeffs b.toInt e.toInt
    checkPattern rowIndices rowCoeffs columns (.int row)
    let (lo, hi) ← rowBounds (.float lo) (.float hi)
    let rest ← cutRows columns indices coeffs (row + 1) (e :: starts) los his
    return ⟨.ofArrays rowIndices rowCoeffs, lo, hi⟩ :: rest
  | _, _, _, _ => .ok []

/-- The five vectors of a batch. -/
structure Batch where
  starts : List Int64
  indices : List Int64
  coeffs : List Binary64
  lower : List Binary64
  upper : List Binary64

/-- A vector of a batch that is refused makes the batch malformed. -/
def inBatch {α : Type} : Except Error α → Except Error α
  | .error (.fault f) => .error (.fault f)
  | .error e => .error (.batchVector e)
  | .ok a => .ok a

/-- Reads the vectors of a batch. -/
def readBatch (rowCount starts indices coeffs lower upper : Arg) : Except Error Batch := do
  let starts ← inBatch (indexVector starts "row starts")
  let indices ← inBatch (indexVector indices "column indices")
  let coeffs ← inBatch (coefficientVector coeffs "column coefficients")
  let lower ← inBatch (numberVector lower rowCount "row lower bounds")
  let upper ← inBatch (numberVector upper rowCount "row upper bounds")
  return ⟨starts, indices, coeffs, lower, upper⟩

/-- **The check of the offsets**: one more than there are rows, from zero to the number of entries,
not decreasing. -/
def checkOffsets (count : Arg.Real) (b : Batch) : Except Error Unit :=
  let first := (b.starts.head?.getD 0).toInt
  let last := (b.starts.getLast?.getD 0).toInt
  if !(Arg.Real.int b.starts.length).same count.succ then
    .error (.startsCount count.succ b.starts.length)
  else if b.indices.length ≠ b.coeffs.length then
    .error (.batchLengths b.indices.length b.coeffs.length)
  else if first ≠ 0 then .error (.startsOrigin first)
  else if !nonDecreasing b.starts then .error .startsDecrease
  else if last ≠ b.indices.length then .error (.startsEnd last b.indices.length)
  else .ok ()

/-- The rows of a batch, all of which have been checked. -/
def checkedRows (m : Model) (rowCount starts indices coeffs lower upper : Arg) : Except Error (List BoundedRow) :=
  match rowCount.real? with
  | none => .error (.fault .wrongKind)
  | some count =>
    if !(Arg.Real.int 0).le count then .error (.rowCountNegative rowCount)
    else do
      let batch ← readBatch rowCount starts indices coeffs lower upper
      checkOffsets count batch
      match count with
      | .float _ => .error (.fault .wrongKind)
      | .int _ => cutRows m.columns batch.indices batch.coeffs 0 batch.starts batch.lower batch.upper

end Model

/-- **Adds a batch of rows**: offsets, all column indices and all coefficients in a row, and the bounds
of the rows. All of them are checked before the first is added. -/
def Operation.addRows (rowCount starts indices coeffs lower upper : Arg) : Operation Model Unit := do
  let m ← get
  m.checkMutable
  let rows ← m.checkedRows rowCount starts indices coeffs lower upper
  rows.forM fun r => append r.row r.lo r.hi

end Milp
