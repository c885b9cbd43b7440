import Milp.Row.Basic

/-!
# Patterns

The left side of a constraint as it may be asked for: indices and coefficients in two arrays of any
shape, whose first axis counts the entries of the row. The patterns of rows, `Pattern.ofRow`, are those
in two vectors.

* `Pattern.agrees` — two patterns of the same shapes, indices and numbers.
* `Pattern.kept` — the pattern as it is stored, with at least one axis; rows are kept as they are.
* `Pattern.check` — the check of a pattern, which on rows is `checkPattern`.
-/

namespace Milp

/-- **A pattern**: column indices and coefficients, side by side. -/
structure Pattern where
  indices : Grid Int64
  coeffs : Grid Binary64
  deriving DecidableEq

namespace Pattern

/-- The pattern of a row. -/
def ofRow (r : Row) : Pattern := ⟨.vector r.indices, .vector r.coeffs⟩

/-- The entries of a pattern, whatever their shape. -/
def row (p : Pattern) : Row := .ofArrays p.indices.entries p.coeffs.entries

/-- The number of indices along the first axis. -/
def count (p : Pattern) : Nat := p.indices.shape.headD 0

/-- The largest column index of a pattern, `-1` when there is none. -/
def maxIndex (p : Pattern) : Int := p.row.maxIndex

/-- **Whether two patterns have the same shapes**, the same indices and numerically the same
coefficients. -/
def agrees (p q : Pattern) : Bool :=
  decide (p.indices.shape = q.indices.shape) && decide (p.coeffs.shape = q.coeffs.shape) &&
    p.row.agrees q.indices.entries q.coeffs.entries

/-- **The pattern as it is stored.** Single values become vectors. Among indices that are counted but of
which there are none, no largest one can be found. -/
def kept (p : Pattern) : Except Error Pattern :=
  let q : Pattern := ⟨p.indices.withAxis, p.coeffs.withAxis⟩
  if q.count ≠ 0 ∧ q.indices.entries = [] then .error (.fault .unreadable) else .ok q

/-- **The pattern of the nonzero entries** of an array. Entries are counted through the whole array, and
the counts then taken for positions along the first axis. -/
def ofDense (g : Grid Binary64) : Except Error Pattern :=
  let indices := (Row.ofDense g.entries).indices
  match g.shape with
  | [] => .error (.fault .outOfBounds)
  | n :: rest =>
    let parts := Grid.chunks (Grid.volume rest) n g.entries
    match indices.mapM fun i => parts[i.toInt.toNat]? with
    | some chosen => kept ⟨.vector indices, ⟨chosen.length :: rest, chosen.flatten⟩⟩
    | none => .error (.fault .outOfBounds)

/-! ## Patterns of rows -/

@[simp] theorem row_ofRow (r : Row) : (ofRow r).row = r := r.ofArrays_self

@[simp] theorem count_ofRow (r : Row) : (ofRow r).count = r.size := rfl

@[simp] theorem maxIndex_ofRow (r : Row) : (ofRow r).maxIndex = r.maxIndex := r.maxIndex_eq.symm

/-- The patterns of rows agree as the rows do. -/
@[simp] theorem agrees_ofRow (r t : Row) : (ofRow r).agrees (ofRow t) = r.agrees t.indices t.coeffs := by
  change (decide ([r.indices.length] = [t.indices.length]) &&
    decide ([r.coeffs.length] = [t.coeffs.length]) && r.agrees t.indices t.coeffs) = _
  cases h : r.agrees t.indices t.coeffs with
  | false => simp
  | true =>
    have ⟨hi, hc⟩ := Row.agrees_iff.1 h
    simp [hi, length_eq_of_sameNumbers hc]

/-- A row is kept as it is. -/
@[simp] theorem kept_ofRow (r : Row) : (ofRow r).kept = .ok (ofRow r) := by
  simp [kept, ofRow, count]

/-! ## The check -/

/-- The number of different positions in a list. -/
def distinctCount : List Int64 → Nat
  | [] => 0
  | i :: rest => if i ∈ rest then distinctCount rest else distinctCount rest + 1

/-- Whether a position lies below a number of columns, which has to be a real number. -/
def isBelow (i : Int) (columns : Arg) : Except Error Bool :=
  match columns.real? with
  | some n => .ok ((Arg.Real.int i).lt n)
  | none => .error (.fault .wrongKind)

/-- **The check of a pattern** against any number of columns. Lengths are those along the first axis,
which both arrays must have. -/
def check (p : Pattern) (columns row : Arg) : Except Error Unit :=
  let low := smallest p.indices.entries
  let high := largest p.indices.entries
  match p.indices.shape, p.coeffs.shape with
  | n :: _, k :: _ =>
    if n ≠ k then .error (.patternLengths n k row)
    else if n = 0 then .ok ()
    else if p.indices.entries.isEmpty then .error (.fault .unreadable)
    else
      match if low < 0 then .ok false else isBelow high columns with
      | .error e => .error e
      | .ok false => .error (.indexRange columns low high row)
      | .ok true =>
        if distinctCount p.indices.entries ≠ n then .error (.repeatedIndex row)
        else checkFinite p.coeffs.entries (coefficientsName row)
  | _, _ => .error (.fault .outOfBounds)

theorem distinctCount_le (xs : List Int64) : distinctCount xs ≤ xs.length := by
  induction xs with
  | nil => simp [distinctCount]
  | cons i rest ih =>
    simp only [distinctCount, List.length_cons]
    split <;> omega

theorem distinctCount_eq_length_iff {xs : List Int64} : distinctCount xs = xs.length ↔ xs.Nodup := by
  induction xs with
  | nil => simp [distinctCount]
  | cons i rest ih =>
    have hle := distinctCount_le rest
    by_cases hi : i ∈ rest
    · simp only [distinctCount, hi, if_true, List.length_cons, List.nodup_cons, not_true, false_and,
        iff_false]
      omega
    · simp only [distinctCount, hi, if_false, List.length_cons, List.nodup_cons, not_false_eq_true,
        true_and, ← ih]
      omega

/-- **On rows the two checks are one.** -/
theorem check_ofRow (r : Row) (columns : Int) (row : Arg) :
    (ofRow r).check (.int columns) row = checkPattern r.indices r.coeffs columns row := by
  unfold check checkPattern ofRow
  simp only [Grid.shape_vector, Grid.entries_vector, isBelow, Arg.real?, Arg.Real.lt, ne_eq]
  by_cases hlen : r.indices.length = r.coeffs.length
  · by_cases hempty : r.indices.length = 0
    · simp [List.length_eq_zero_iff.1 hempty, ← hlen]
    · have hne : r.indices.isEmpty = false := by
        simpa [List.isEmpty_iff] using fun h => hempty (by simp [h])
      by_cases hlow : smallest r.indices < 0
      · simp [← hlen, hempty, hne, hlow]
      · by_cases hhigh : largest r.indices < columns
        · simp [← hlen, hempty, hne, hlow, hhigh, Int.not_le.2 hhigh, distinctCount_eq_length_iff]
        · simp [← hlen, hempty, hne, hlow, hhigh, Int.not_lt.1 hhigh]
  · simp [hlen]

end Pattern

end Milp
