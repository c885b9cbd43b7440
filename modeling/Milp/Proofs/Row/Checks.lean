import Milp.Proofs.Binary64.Order
import Milp.Row.Basic

/-!
# What the checks of a row accept

The checks of `Milp.Row.Basic` refuse a row for its first fault. Here is what a row without fault is,
and that the checks accept exactly such rows.

* `Row.Fits` — as many coefficients as indices, different indices within the columns, finite
  coefficients: `checkPattern_eq_ok_iff`.
* `IsRange` — two bounds in order that leave room for a number: `rowBounds_eq_ok_iff`.
* `IsLargest` — the index that a row's width is judged by: `isLargest_largest`.
* `fits_ofDense` — the nonzeros of a full vector make a row that fits.
* `category_checkPattern` — the row's position in a batch only shows in messages.
-/

namespace Milp

/-! ## Largest and smallest index -/

theorem foldl_max_lt_iff {is : List Int64} {a n : Int} :
    is.foldl (fun m j => max m j.toInt) a < n ↔ a < n ∧ ∀ i ∈ is, i.toInt < n := by
  induction is generalizing a with
  | nil => simp
  | cons i rest ih => rw [List.foldl_cons, ih, Int.max_lt, List.forall_mem_cons, and_assoc]

theorem le_foldl_min_iff {is : List Int64} {a n : Int} :
    n ≤ is.foldl (fun m j => min m j.toInt) a ↔ n ≤ a ∧ ∀ i ∈ is, n ≤ i.toInt := by
  induction is generalizing a with
  | nil => simp
  | cons i rest ih => rw [List.foldl_cons, ih, Int.le_min, List.forall_mem_cons, and_assoc]

theorem largest_lt_iff {is : List Int64} {n : Int} (hn : -1 < n) :
    largest is < n ↔ ∀ i ∈ is, i.toInt < n := by
  cases is with
  | nil => simpa [largest] using hn
  | cons i rest => simp [largest, foldl_max_lt_iff]

/-- **`IsLargest is k`** — `k` is the largest of the positions `is`, and `-1` if there are none. -/
structure IsLargest (is : List Int64) (k : Int) : Prop where
  isUpper : ∀ i ∈ is, i.toInt ≤ k
  attained : is ≠ [] → ∃ i ∈ is, i.toInt = k
  ofEmpty : is = [] → k = -1

theorem foldl_max_attained (i : Int64) (rest : List Int64) :
    ∃ j ∈ i :: rest, j.toInt = rest.foldl (fun m j => max m j.toInt) i.toInt := by
  induction rest generalizing i with
  | nil => exact ⟨i, List.mem_cons_self, rfl⟩
  | cons k rest ih =>
    rw [List.foldl_cons]
    by_cases hle : i.toInt ≤ k.toInt
    · obtain ⟨j, hj, hlargest⟩ := ih k
      rw [Int.max_eq_right hle]
      exact ⟨j, List.mem_cons_of_mem i hj, hlargest⟩
    · obtain ⟨j, hj, hlargest⟩ := ih i
      rw [Int.max_eq_left (by omega)]
      rcases List.mem_cons.mp hj with rfl | hj
      · exact ⟨j, List.mem_cons_self, hlargest⟩
      · exact ⟨j, List.mem_cons_of_mem i (List.mem_cons_of_mem k hj), hlargest⟩

theorem isLargest_largest (is : List Int64) : IsLargest is (largest is) := by
  cases is with
  | nil => exact ⟨by simp, fun hne => absurd rfl hne, fun _ => rfl⟩
  | cons i rest =>
    refine ⟨?_, fun _ => foldl_max_attained i rest, fun hnil => absurd hnil (List.cons_ne_nil i rest)⟩
    have hupper : i.toInt < largest (i :: rest) + 1 ∧ ∀ j ∈ rest, j.toInt < largest (i :: rest) + 1 :=
      foldl_max_lt_iff.mp (Int.lt_succ _)
    intro j hj
    rcases List.mem_cons.mp hj with rfl | hj
    · exact Int.le_of_lt_add_one hupper.1
    · exact Int.le_of_lt_add_one (hupper.2 j hj)

theorem le_smallest_iff {is : List Int64} (h : is ≠ []) {n : Int} :
    n ≤ smallest is ↔ ∀ i ∈ is, n ≤ i.toInt := by
  cases is with
  | nil => exact absurd rfl h
  | cons i rest => simp [smallest, le_foldl_min_iff]

/-! ## Patterns -/

/-- **`r.Fits n`** — the row can be a row of a model with `n` columns. -/
structure Row.Fits (n : Nat) (r : Row) : Prop where
  lengths : r.indices.length = r.coeffs.length
  inRange : ∀ i ∈ r.indices, 0 ≤ i.toInt ∧ i.toInt < n
  distinct : r.indices.Nodup
  finite : ∀ c ∈ r.coeffs, c.isFinite = true

-- The indices are gone through one by one: there are finitely many positions, but far too many.
instance (n : Nat) (r : Row) : Decidable (r.Fits n) :=
  decidable_of_iff (r.indices.length = r.coeffs.length ∧
      r.indices.all (fun i => decide (0 ≤ i.toInt ∧ i.toInt < n)) = true ∧ r.indices.Nodup ∧
      r.coeffs.all (·.isFinite) = true)
    ⟨fun h => ⟨h.1, by simpa using h.2.1, h.2.2.1, by simpa using h.2.2.2⟩,
      fun h => ⟨h.lengths, by simpa using h.inRange, h.distinct, by simpa using h.finite⟩⟩

/-- **The check of a pattern accepts exactly the rows that fit.** -/
theorem checkPattern_eq_ok_iff {r : Row} {n : Nat} {row : Arg} :
    checkPattern r.indices r.coeffs n row = .ok () ↔ r.Fits n := by
  unfold checkPattern
  constructor
  · intro h
    split at h
    · cases h
    rename_i hlen
    have hlen : r.indices.length = r.coeffs.length := Decidable.not_not.mp hlen
    split at h
    · rename_i hempty
      have hi : r.indices = [] := List.isEmpty_iff.mp hempty
      have hc : r.coeffs = [] := List.length_eq_zero_iff.mp (by rw [← hlen, hi]; rfl)
      exact ⟨hlen, by simp [hi], by simp [hi], by simp [hc]⟩
    rename_i hne
    have hne : r.indices ≠ [] := fun hi => hne (by simp [hi])
    split at h
    · cases h
    rename_i hrange
    obtain ⟨hlow, hhigh⟩ := not_or.mp hrange
    have hlow := (le_smallest_iff hne).mp (Int.not_lt.mp hlow)
    have hhigh := (largest_lt_iff (by omega)).mp (Int.not_le.mp hhigh)
    split at h
    · cases h
    rename_i hdistinct
    unfold checkFinite at h
    split at h
    · rename_i hfinite
      exact ⟨hlen, fun i hi => ⟨hlow i hi, hhigh i hi⟩, Decidable.not_not.mp hdistinct,
        List.all_eq_true.mp hfinite⟩
    · cases h
  · intro h
    rw [if_neg (Decidable.not_not.mpr h.lengths)]
    split
    · rfl
    rename_i hne
    have hne : r.indices ≠ [] := fun hi => hne (by simp [hi])
    have hlow := (le_smallest_iff hne).mpr fun i hi => (h.inRange i hi).1
    have hhigh := (largest_lt_iff (by omega)).mpr fun i hi => (h.inRange i hi).2
    rw [if_neg (by omega), if_neg (Decidable.not_not.mpr h.distinct), checkFinite,
      if_pos (List.all_eq_true.mpr h.finite)]

/-- The position of a row in a batch shows in messages only. -/
theorem category_checkPattern (indices : List Int64) (coeffs : List Binary64) (n : Int)
    (row row' : Arg) :
    (checkPattern indices coeffs n row).mapError Error.category =
      (checkPattern indices coeffs n row').mapError Error.category := by
  unfold checkPattern checkFinite
  repeat' split
  all_goals rfl

/-! ## Full vectors -/

/-- A count that is a position stays the same. -/
theorem toInt_ofNat {n : Nat} (h : n ≤ Int64.maxValue.toInt) : (Int64.ofNat n).toInt = n := by
  have hmax : Int64.maxValue.toInt = 9223372036854775807 := rfl
  exact Int64.toInt_ofNat_of_lt (by omega)

/-- Positions in a list increase. -/
theorem pairwise_zipIdx {α : Type} (xs : List α) : xs.zipIdx.Pairwise fun p q => p.2 < q.2 := by
  rw [← List.pairwise_map (f := Prod.snd) (R := fun i j : Nat => i < j), List.zipIdx_map_snd]
  exact List.pairwise_lt_range' ..

theorem forall_mem_zipIdx_iff {α : Type} {xs : List α} (P : α → Prop) :
    (∀ p ∈ xs.zipIdx, P p.1) ↔ ∀ x ∈ xs, P x := by
  constructor
  · intro h x hx
    obtain ⟨k, hk⟩ := List.mem_iff_getElem?.mp hx
    exact h (x, k) (List.mk_mem_zipIdx_iff_getElem?.mpr hk)
  · intro h p hp
    exact h p.1 (List.fst_mem_of_mem_zipIdx hp)

/-- **The nonzeros of a full vector make a row that fits**, as long as positions can count them. -/
theorem fits_ofDense {xs : List Binary64} (hlength : xs.length ≤ Int64.maxValue.toInt)
    (hfinite : ∀ x ∈ xs, x.isFinite = true) : (Row.ofDense xs).Fits xs.length := by
  have hposition : ∀ p ∈ xs.zipIdx, (Int64.ofNat p.2).toInt = p.2 ∧ p.2 < xs.length := by
    intro p hp
    have hlt := List.snd_lt_of_mem_zipIdx hp
    exact ⟨toInt_ofNat (by omega), hlt⟩
  refine ⟨by simp [Row.ofDense], ?_, ?_, ?_⟩
  · intro i hi
    obtain ⟨p, hp, rfl⟩ := List.mem_map.mp hi
    obtain ⟨hvalue, hlt⟩ := hposition p (List.mem_filter.mp hp).1
    omega
  · refine List.pairwise_map.mpr (((pairwise_zipIdx xs).filter _).imp_of_mem ?_)
    intro p q hp hq hpq heq
    have hvalue := congrArg Int64.toInt heq
    rw [(hposition p (List.mem_filter.mp hp).1).1, (hposition q (List.mem_filter.mp hq).1).1] at hvalue
    omega
  · intro c hc
    obtain ⟨p, hp, rfl⟩ := List.mem_map.mp hc
    exact hfinite p.1 (List.fst_mem_of_mem_zipIdx (List.mem_filter.mp hp).1)

/-! ## Bounds -/

/-- **`IsRange lo hi`** — bounds of a row: in order, and neither on the wrong end of the line. -/
structure IsRange (lo hi : Binary64) : Prop where
  inOrder : lo.le hi = true
  lo_ne : lo ≠ Binary64.infinity
  hi_ne : hi ≠ Binary64.negInfinity

instance (lo hi : Binary64) : Decidable (IsRange lo hi) :=
  decidable_of_iff (lo.le hi = true ∧ lo ≠ Binary64.infinity ∧ hi ≠ Binary64.negInfinity)
    ⟨fun h => ⟨h.1, h.2.1, h.2.2⟩, fun h => ⟨h.inOrder, h.lo_ne, h.hi_ne⟩⟩

/-- **The check of bounds accepts exactly the ranges.** -/
theorem rowBounds_eq_ok_iff {lo hi : Arg} {l h : Binary64} :
    rowBounds lo hi = .ok (l, h) ↔ rowBound lo = .ok l ∧ rowBound hi = .ok h ∧ IsRange l h := by
  unfold rowBounds
  constructor
  · intro hok
    split at hok
    · cases hok
    · cases hok
    rename_i l' h' hl hh
    split at hok
    · cases hok
    split at hok
    · cases hok
    rename_i hlo
    split at hok
    · cases hok
    rename_i hhi
    split at hok
    · rename_i hle
      cases hok
      exact ⟨hl, hh, hle, fun he => hlo (Binary64.same_infinity_iff.mpr he),
        fun he => hhi (Binary64.same_negInfinity_iff.mpr he)⟩
    · cases hok
  · rintro ⟨hl, hh, hrange⟩
    obtain ⟨hlnan, hhnan⟩ := Binary64.not_isNaN_of_le hrange.inOrder
    have hlo : ¬ l.same Binary64.infinity = true :=
      fun hs => hrange.lo_ne (Binary64.same_infinity_iff.mp hs)
    have hhi : ¬ h.same Binary64.negInfinity = true :=
      fun hs => hrange.hi_ne (Binary64.same_negInfinity_iff.mp hs)
    rw [hl, hh]
    simp [hlnan, hhnan, hlo, hhi, hrange.inOrder]

end Milp
