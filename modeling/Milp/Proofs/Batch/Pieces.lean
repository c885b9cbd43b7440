import Milp.Model.Rows
import Milp.Proofs.Row.Checks
import Milp.Proofs.Steps

/-!
# The pieces of a batch

Cutting a batch into rows does two things at once: it takes the entries between neighbouring offsets,
and it checks what it has taken. Here the two are told apart.

* `slice_append_slice` — two slices that meet are one.
* `pieces` — the entries between neighbouring offsets, with the bounds at their place, unchecked.
* `BoundedRow.check` — the check of one row with numbers for bounds; it accepts the rows that fit.
* `cutRows_eq` — a batch is cut into its pieces, which are then checked one after the other.
-/

namespace Milp

/-! ## Checking one row -/

/-- **`r.Fits n`** — the row and its bounds can stand in a model with `n` columns. -/
structure BoundedRow.Fits (n : Nat) (r : BoundedRow) : Prop where
  row : r.row.Fits n
  range : IsRange r.lo r.hi

instance (n : Nat) (r : BoundedRow) : Decidable (r.Fits n) :=
  decidable_of_iff (r.row.Fits n ∧ IsRange r.lo r.hi)
    ⟨fun h => ⟨h.1, h.2⟩, fun h => ⟨h.row, h.range⟩⟩

/-- The check of a row; `position` is its place in a batch, for messages. -/
def BoundedRow.check (n : Nat) (position : Arg) (r : BoundedRow) : Except Error BoundedRow := do
  checkPattern r.row.indices r.row.coeffs n position
  let (lo, hi) ← rowBounds (.float r.lo) (.float r.hi)
  return ⟨r.row, lo, hi⟩

/-- **Exactly the rows that fit pass**, and they come out as they went in. -/
theorem BoundedRow.check_eq_ok_iff {n : Nat} {position : Arg} {r s : BoundedRow} :
    r.check n position = .ok s ↔ s = r ∧ r.Fits n := by
  constructor
  · intro h
    obtain ⟨_, hpattern, h⟩ := bind_eq_ok_iff.mp h
    obtain ⟨⟨l, u⟩, hbounds, h⟩ := bind_eq_ok_iff.mp h
    obtain ⟨hl, hu, hrange⟩ := rowBounds_eq_ok_iff.mp hbounds
    cases hl
    cases hu
    cases h
    exact ⟨rfl, checkPattern_eq_ok_iff.mp hpattern, hrange⟩
  · rintro ⟨rfl, hfits⟩
    rw [BoundedRow.check, checkPattern_eq_ok_iff.mpr hfits.row,
      rowBounds_eq_ok_iff.mpr ⟨rfl, rfl, hfits.range⟩]
    rfl

/-- The position of a row shows in messages only. -/
theorem BoundedRow.category_check (n : Nat) (r : BoundedRow) (position position' : Arg) :
    (r.check n position).mapError Error.category =
      (r.check n position').mapError Error.category := by
  simp only [BoundedRow.check, mapError_bind]
  rw [category_checkPattern r.row.indices r.row.coeffs n position position']

namespace Model

/-! ## Slices -/

theorem clampOffset_of_nonneg (n : Nat) {k : Int} (h : 0 ≤ k) : clampOffset n k = min k.toNat n :=
  if_neg (Int.not_lt.mpr h)

theorem clampOffset_of_neg (n : Nat) {k : Int} (h : k < 0) : clampOffset n k = (k + n).toNat :=
  if_pos h

theorem clampOffset_le (n : Nat) (k : Int) : clampOffset n k ≤ n := by
  unfold clampOffset
  split <;> omega

/-- An offset inside a list is where it says. -/
theorem clampOffset_of_le {n k : Nat} (h : k ≤ n) : clampOffset n k = k := by
  rw [clampOffset_of_nonneg n (Int.natCast_nonneg k)]
  omega

/-- **Two slices that meet are one.** -/
theorem slice_append_slice {α : Type} (xs : List α) {b e f : Int}
    (hbe : clampOffset xs.length b ≤ clampOffset xs.length e)
    (hef : clampOffset xs.length e ≤ clampOffset xs.length f) :
    slice xs b e ++ slice xs e f = slice xs b f := by
  simp only [slice]
  generalize clampOffset xs.length b = i at *
  generalize clampOffset xs.length e = j at *
  generalize clampOffset xs.length f = k at *
  obtain ⟨d, rfl⟩ := Nat.exists_eq_add_of_le hbe
  have hk : k - i = d + (k - (i + d)) := by omega
  rw [Nat.add_sub_cancel_left, hk, List.take_add, List.drop_drop]

/-- The middle part of a list is the slice at its offsets. -/
theorem slice_append_append {α : Type} (xs ys zs : List α) :
    slice (xs ++ ys ++ zs) xs.length (xs.length + ys.length : Nat) = ys := by
  unfold slice
  rw [clampOffset_of_le (by simp), clampOffset_of_le (by simp)]
  simp [List.append_assoc]

/-- A slice is as long as the way between its offsets. -/
theorem length_slice {α : Type} (xs : List α) (b e : Int) :
    (slice xs b e).length = clampOffset xs.length e - clampOffset xs.length b := by
  have hle := clampOffset_le xs.length e
  unfold slice
  rw [List.length_take, List.length_drop]
  omega

/-! ## Cutting and checking -/

/-- **The pieces of a batch**: for each pair of neighbouring offsets the entries between them, with the
bounds at their place. -/
def pieces (indices : List Int64) (coeffs : List Binary64) :
    List Int64 → List Binary64 → List Binary64 → List BoundedRow
  | b :: e :: starts, lo :: los, hi :: his =>
    ⟨.ofArrays (slice indices b.toInt e.toInt) (slice coeffs b.toInt e.toInt), lo, hi⟩ ::
      pieces indices coeffs (e :: starts) los his
  | _, _, _ => []

/-- Checks rows one after the other, counting from a position on. -/
def checkRows (n : Nat) : Nat → List BoundedRow → Except Error (List BoundedRow)
  | _, [] => .ok []
  | position, r :: rest => do
    let r ← r.check n (.int position)
    let rest ← checkRows n (position + 1) rest
    return r :: rest

/-- **A batch is cut into its pieces**, which are checked one after the other. -/
theorem cutRows_eq (n : Nat) (indices : List Int64) (coeffs : List Binary64) (position : Nat)
    (starts : List Int64) (los his : List Binary64) :
    cutRows n indices coeffs position starts los his =
      checkRows n position (pieces indices coeffs starts los his) := by
  fun_induction pieces indices coeffs starts los his generalizing position with
  | case1 b e starts lo los hi his ih =>
    simp only [cutRows, checkRows, ih, BoundedRow.check, Row.indices_ofArrays, Row.coeffs_ofArrays, bind_assoc,
      pure_bind]
  | case2 starts los his hne =>
    rw [checkRows, cutRows]
    exact hne

/-- **Checking succeeds exactly if all rows fit**, and changes nothing. -/
theorem checkRows_eq_ok_iff {n position : Nat} {rows out : List BoundedRow} :
    checkRows n position rows = .ok out ↔ out = rows ∧ ∀ r ∈ rows, r.Fits n := by
  induction rows generalizing position out with
  | nil => simp [checkRows, eq_comm]
  | cons r rest ih =>
    rw [checkRows, bind_eq_ok_iff]
    constructor
    · rintro ⟨s, hs, hout⟩
      obtain ⟨rest', hrest, hout⟩ := bind_eq_ok_iff.mp hout
      obtain ⟨hsr, hfits⟩ := BoundedRow.check_eq_ok_iff.mp hs
      obtain ⟨hsame, hall⟩ := ih.mp hrest
      have hout : s :: rest' = out := Except.ok.inj hout
      rw [← hout, hsr, hsame]
      exact ⟨rfl, List.forall_mem_cons.mpr ⟨hfits, hall⟩⟩
    · rintro ⟨hout, hall⟩
      obtain ⟨hfits, hall⟩ := List.forall_mem_cons.mp hall
      refine ⟨r, BoundedRow.check_eq_ok_iff.mpr ⟨rfl, hfits⟩, ?_⟩
      refine bind_eq_ok_iff.mpr ⟨rest, ih.mpr ⟨rfl, hall⟩, ?_⟩
      rw [hout]
      rfl

end Model

end Milp
