import Milp.Proofs.Arg.Lists
import Milp.Proofs.Arg.Vectors
import Milp.Proofs.Batch.Pieces
import Milp.Proofs.Model.Columns

/-!
# Batches that are read and accepted

A batch passes three checks before the model changes: its vectors are read, its offsets are checked as a
whole, and its rows are cut off and checked one by one.

* `readBatch_eq_ok_iff` — the vectors of a batch are read like any vectors; `readBatch_of_lists` reads lists.
* `Batch.Aligned` — what the check of the offsets accepts: `checkOffsets_eq_ok_iff`.
* `addRows_eq` and `addRows_eq_ok_iff` — a batch is added as the rows that it is cut into, or not at all.
-/

namespace Milp.Model

/-! ## Reading -/

theorem inBatch_eq_ok_iff {α : Type} {x : Except Error α} {a : α} :
    inBatch x = .ok a ↔ x = .ok a := by
  unfold inBatch
  split <;> simp

/-- **The vectors of a batch are read like any vectors.** -/
theorem readBatch_eq_ok_iff {rowCount starts indices coeffs lower upper : Arg} {b : Batch} :
    readBatch rowCount starts indices coeffs lower upper = .ok b ↔
      indexVector starts "row starts" = .ok b.starts ∧
      indexVector indices "column indices" = .ok b.indices ∧
      coefficientVector coeffs "column coefficients" = .ok b.coeffs ∧
      numberVector lower rowCount "row lower bounds" = .ok b.lower ∧
      numberVector upper rowCount "row upper bounds" = .ok b.upper := by
  simp only [readBatch, bind_eq_ok_iff, inBatch_eq_ok_iff]
  constructor
  · rintro ⟨starts', hstarts, indices', hindices, coeffs', hcoeffs, lower', hlower, upper', hupper, h⟩
    cases h
    exact ⟨hstarts, hindices, hcoeffs, hlower, hupper⟩
  · rintro ⟨hstarts, hindices, hcoeffs, hlower, hupper⟩
    exact ⟨_, hstarts, _, hindices, _, hcoeffs, _, hlower, _, hupper, rfl⟩

/-- **Lists are read back**, if no bound is NaN. -/
theorem readBatch_of_lists {b : Batch} {n : Nat} (hlo : b.lower.length = n) (hhi : b.upper.length = n)
    (hnumbers : ∀ x ∈ b.lower ++ b.upper, x.isNaN = false) :
    readBatch (.int n) (.ofPositions b.starts) (.ofPositions b.indices) (.ofFloats b.coeffs)
      (.ofFloats b.lower) (.ofFloats b.upper) = .ok b := by
  obtain ⟨hlower, hupper⟩ := List.forall_mem_append.mp hnumbers
  exact readBatch_eq_ok_iff.mpr ⟨indexVector_ofPositions _ _, indexVector_ofPositions _ _,
    coefficientVector_ofFloats _ _, numberVector_ofFloats hlower hlo _,
    numberVector_ofFloats hupper hhi _⟩

/-! ## Offsets -/

/-- **`b.Aligned n`** — the offsets of a batch are those of `n` rows: from zero to the number of entries,
and no difference of neighbours comes out negative in 64 bits. -/
structure Batch.Aligned (n : Int) (b : Batch) : Prop where
  count : (b.starts.length : Int) = n + 1
  lengths : b.indices.length = b.coeffs.length
  first : (b.starts.head?.getD 0).toInt = 0
  ordered : nonDecreasing b.starts = true
  last : (b.starts.getLast?.getD 0).toInt = b.indices.length

instance (n : Int) (b : Batch) : Decidable (b.Aligned n) :=
  decidable_of_iff ((b.starts.length : Int) = n + 1 ∧ b.indices.length = b.coeffs.length ∧
      (b.starts.head?.getD 0).toInt = 0 ∧ nonDecreasing b.starts = true ∧
      (b.starts.getLast?.getD 0).toInt = b.indices.length)
    ⟨fun h => ⟨h.1, h.2.1, h.2.2.1, h.2.2.2.1, h.2.2.2.2⟩,
      fun h => ⟨h.count, h.lengths, h.first, h.ordered, h.last⟩⟩

/-- **The check of the offsets accepts exactly the aligned batches.** -/
theorem checkOffsets_eq_ok_iff {n : Int} {b : Batch} :
    checkOffsets (.int n) b = .ok () ↔ b.Aligned n := by
  simp only [checkOffsets]
  constructor
  · intro h
    split at h
    · cases h
    rename_i hcount
    split at h
    · cases h
    rename_i hlengths
    split at h
    · cases h
    rename_i hfirst
    split at h
    · cases h
    rename_i hordered
    split at h
    · cases h
    rename_i hlast
    exact ⟨by simpa [Arg.Real.same, Arg.Real.succ] using hcount, Decidable.not_not.mp hlengths,
      Decidable.not_not.mp hfirst, by simpa using hordered, Decidable.not_not.mp hlast⟩
  · intro h
    rw [if_neg (by simp [Arg.Real.same, Arg.Real.succ, h.count]), if_neg (by simp [h.lengths]),
      if_neg (by simp [h.first]), if_neg (by simp [h.ordered]), if_neg (by simp [h.last])]

/-! ## Adding -/

/-- The rows that a batch is cut into. -/
def Batch.pieces (b : Batch) : List BoundedRow :=
  Model.pieces b.indices b.coeffs b.starts b.lower b.upper

/-- A model with more rows. -/
def appendAll (m : Model) (rows : List BoundedRow) : Model := { m with rows := m.rows ++ rows }

@[simp] theorem appendAll_nil (m : Model) : m.appendAll [] = m := by simp [appendAll]

@[simp] theorem appendAll_appendAll (m : Model) (rows more : List BoundedRow) :
    (m.appendAll rows).appendAll more = m.appendAll (rows ++ more) := by simp [appendAll]

@[simp] theorem frozen_appendAll (m : Model) (rows : List BoundedRow) :
    (m.appendAll rows).frozen = m.frozen := rfl

@[simp] theorem columns_appendAll (m : Model) (rows : List BoundedRow) :
    (m.appendAll rows).columns = m.columns := rfl

section

variable {m m' : Model} {rowCount starts indices coeffs lower upper : Arg} {n : Int} {b : Batch}

theorem checkedRows_eq (hcount : rowCount.real? = some (.int n)) (hn : 0 ≤ n)
    (hread : readBatch rowCount starts indices coeffs lower upper = .ok b) (haligned : b.Aligned n) :
    m.checkedRows rowCount starts indices coeffs lower upper = checkRows m.columns 0 b.pieces := by
  have hle : (Arg.Real.int 0).le (.int n) = true := by simpa [Arg.Real.le] using hn
  rw [checkedRows, hcount]
  simp only [hle, Bool.not_true, Bool.false_eq_true, if_false, hread, cutRows_eq]
  show (checkOffsets (.int n) b >>= fun _ => checkRows m.columns 0 b.pieces) = _
  rw [checkOffsets_eq_ok_iff.mpr haligned]
  rfl

/-- **A batch that is read and aligned is added as the rows that it is cut into**, if these pass. -/
theorem addRows_eq (hopen : m.frozen = false) (hcount : rowCount.real? = some (.int n)) (hn : 0 ≤ n)
    (hread : readBatch rowCount starts indices coeffs lower upper = .ok b) (haligned : b.Aligned n) :
    m.addRows rowCount starts indices coeffs lower upper =
      (checkRows m.columns 0 b.pieces).map m.appendAll := by
  rw [addRows, (Operation.settles_addRows m rowCount starts indices coeffs lower upper).outcome_eq,
    whenMutable_of_open hopen, checkedRows_eq hcount hn hread haligned]
  rfl

/-- **What an accepted batch has passed**, and what it has become. -/
theorem addRows_eq_ok_iff :
    m.addRows rowCount starts indices coeffs lower upper = .ok m' ↔
      m.frozen = false ∧ ∃ n b, rowCount.real? = some (.int n) ∧ 0 ≤ n ∧
        readBatch rowCount starts indices coeffs lower upper = .ok b ∧ b.Aligned n ∧
        (∀ r ∈ b.pieces, r.Fits m.columns) ∧ m' = m.appendAll b.pieces := by
  constructor
  · intro h
    have hadd := h
    rw [addRows, (Operation.settles_addRows m rowCount starts indices coeffs lower upper).outcome_eq,
      whenMutable_eq_ok_iff] at h
    obtain ⟨hopen, h⟩ := h
    obtain ⟨_, h, -⟩ := bind_eq_ok_iff.mp h
    unfold checkedRows at h
    split at h
    · cases h
    rename_i count hcount
    split at h
    · cases h
    rename_i hle
    obtain ⟨b, hread, h⟩ := bind_eq_ok_iff.mp h
    obtain ⟨_, halign, h⟩ := bind_eq_ok_iff.mp h
    -- offsets are counted by integers, so a float never passes
    cases count with
    | float x => cases h
    | int n =>
      have hn : 0 ≤ n := by simpa [Arg.Real.le] using hle
      have haligned := checkOffsets_eq_ok_iff.mp halign
      rw [addRows_eq hopen hcount hn hread haligned] at hadd
      obtain ⟨rows, hrows, hm'⟩ := map_eq_ok_iff.mp hadd
      obtain ⟨hsame, hfits⟩ := checkRows_eq_ok_iff.mp hrows
      rw [hsame] at hm'
      exact ⟨hopen, n, b, hcount, hn, hread, haligned, hfits, hm'.symm⟩
  · rintro ⟨hopen, n, b, hcount, hn, hread, haligned, hfits, rfl⟩
    rw [addRows_eq hopen hcount hn hread haligned, checkRows_eq_ok_iff.mpr ⟨rfl, hfits⟩]
    rfl

end

end Milp.Model
