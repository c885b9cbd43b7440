import Milp.Arg.Vector

/-!
# Rows

The left side of one constraint: the columns it touches, in the order in which they were given, and
a coefficient for each. `Row.ofDense` keeps the nonzeros of a full vector; `Row.scatter` writes a row
out again. `checkPattern` and `rowBounds` are the checks that every stored row has passed.
-/

namespace Milp

/-- The largest of a list of positions, `-1` when there is none. -/
def largest : List Int64 → Int
  | [] => -1
  | i :: rest => rest.foldl (fun m j => max m j.toInt) i.toInt

/-- **A row**: column indices and coefficients, side by side, and the largest of the indices. -/
structure Row where
  indices : List Int64
  coeffs : List Binary64
  maxIndex : Int
  maxIndex_eq : maxIndex = largest indices
  deriving DecidableEq

/-- The smallest of a list of positions, `-1` when there is none. -/
def smallest : List Int64 → Int
  | [] => -1
  | i :: rest => rest.foldl (fun m j => min m j.toInt) i.toInt

/-- Entry by entry equal as numbers, and of one length. -/
def sameNumbers : List Binary64 → List Binary64 → Bool
  | [], [] => true
  | x :: xs, y :: ys => x.same y && sameNumbers xs ys
  | _, _ => false

theorem length_eq_of_sameNumbers {xs ys : List Binary64} (h : sameNumbers xs ys = true) :
    xs.length = ys.length := by
  fun_induction sameNumbers xs ys with
  | case1 => rfl
  | case2 x xs y ys ih => simp_all
  | case3 => simp at h

namespace Row

/-- **The row of two vectors.** Its largest index is looked for once, here. -/
def ofArrays (indices : List Int64) (coeffs : List Binary64) : Row := ⟨indices, coeffs, largest indices, rfl⟩

@[simp] theorem indices_ofArrays (is : List Int64) (cs : List Binary64) : (ofArrays is cs).indices = is := rfl

@[simp] theorem coeffs_ofArrays (is : List Int64) (cs : List Binary64) : (ofArrays is cs).coeffs = cs := rfl

/-- Rows are the same if their indices and coefficients are. -/
@[ext] theorem ext {r t : Row} (hindices : r.indices = t.indices) (hcoeffs : r.coeffs = t.coeffs) : r = t := by
  obtain ⟨is, cs, high, hhigh⟩ := r
  obtain ⟨js, ds, top, htop⟩ := t
  cases hindices
  cases hcoeffs
  rw [mk.injEq]
  exact ⟨rfl, rfl, hhigh.trans htop.symm⟩

@[simp] theorem ofArrays_self (r : Row) : ofArrays r.indices r.coeffs = r := ext rfl rfl

/-- The number of entries of a row. -/
def size (r : Row) : Nat := r.indices.length

/-- The columns and coefficients side by side. -/
def terms (r : Row) : List (Int64 × Binary64) := r.indices.zip r.coeffs

/-- **The row of the nonzero entries** of a full vector, in increasing order of columns. NaN and the
infinities count as nonzero. -/
def ofDense (xs : List Binary64) : Row :=
  let kept := xs.zipIdx.filter fun p => !p.1.same Binary64.zero
  ofArrays (kept.map fun p => Int64.ofNat p.2) (kept.map (·.1))

/-- Whether a row has exactly these indices and numerically these coefficients. -/
def agrees (r : Row) (indices : List Int64) (coeffs : List Binary64) : Bool :=
  decide (r.indices = indices) && sameNumbers r.coeffs coeffs

theorem agrees_iff {r : Row} {indices : List Int64} {coeffs : List Binary64} :
    r.agrees indices coeffs = true ↔ r.indices = indices ∧ sameNumbers r.coeffs coeffs = true := by
  simp [agrees]

/-- **The full vector** of length `n` that a row stands for; of repeated columns the last entry
counts. -/
def scatter (n : Nat) (r : Row) : List Binary64 :=
  r.terms.foldl (fun xs t => xs.set t.1.toInt.toNat t.2) (List.replicate n Binary64.zero)

end Row

/-! ## Checks -/

/-- What a row's coefficients are called in messages. -/
def coefficientsName (row : Arg) : String := "sparse row coefficients" ++ Error.inRow row

/-- **The check of one sparse pattern**: as many indices as coefficients, indices within the columns
and without repetition, finite coefficients. `row` is the position in a batch, for messages. -/
def checkPattern (indices : List Int64) (coeffs : List Binary64) (columns : Int)
    (row : Arg) : Except Error Unit :=
  if indices.length ≠ coeffs.length then
    .error (.patternLengths indices.length coeffs.length row)
  else if indices.isEmpty then .ok ()
  else if smallest indices < 0 ∨ columns ≤ largest indices then
    .error (.indexRange (.int columns) (smallest indices) (largest indices) row)
  else if ¬ indices.Nodup then .error (.repeatedIndex row)
  else checkFinite coeffs (coefficientsName row)

/-- One bound of a row as a number. -/
def rowBound (a : Arg) : Except Error Binary64 :=
  match a.toNumber with
  | .error (.fault .tooLarge) => .error (.fault .tooLarge)
  | .error _ => .error .rowBoundsNotNumbers
  | .ok x => .ok x

/-- **The bounds of a row**: two numbers in order, the lower one not plus infinity and the upper one
not minus infinity. -/
def rowBounds (lo hi : Arg) : Except Error (Binary64 × Binary64) :=
  match rowBound lo, rowBound hi with
  | .error e, _ => .error e
  | _, .error e => .error e
  | .ok l, .ok h =>
    if l.isNaN || h.isNaN then .error .rowBoundsNaN
    else if l.same Binary64.infinity then .error .rowLowerInfinite
    else if h.same Binary64.negInfinity then .error .rowUpperInfinite
    else if l.le h then .ok (l, h)
    else .error (.rowBoundsCrossed l h)

end Milp
