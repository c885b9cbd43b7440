import Mathlib.Data.List.Forall2
import Mathlib.Data.List.Nodup
import Milp.Proofs.Row.Agreement

/-!
# Rows written out

A row and the full vector that it stands for. Writing a row out forgets the order of its entries and its
explicit zeros; picking the nonzeros from the vector gives the row back without them.

* `getElem?_scatter_of_mem` and `getElem?_scatter_of_not_mem` — the vector, column by column.
* `mem_terms_ofDense_iff` and `pairwise_ofDense` — the nonzeros of a vector, in increasing order.
* `scatter_ofDense` — writing the nonzeros out gives the vector, up to the signs of zeros.
* `Row.asDense` — the row as it is stored when it comes as a full vector, and `Row.Canonical` — the rows that
  stay as they are.
-/

namespace Milp

/-- **Equal numbers, position by position.** -/
theorem sameNumbers_iff_forall₂ {xs ys : List Binary64} :
    sameNumbers xs ys = true ↔ List.Forall₂ (fun x y => x.same y = true) xs ys := by
  fun_induction sameNumbers xs ys with
  | case1 => simp
  | case2 x xs y ys ih => rw [Bool.and_eq_true, List.forall₂_cons, ih]
  | case3 xs ys hnil hcons =>
    refine iff_of_false (by simp) fun h => ?_
    cases h with
    | nil => exact hnil rfl rfl
    | cons => exact hcons _ _ _ _ rfl rfl

namespace Row

variable {r : Row} {n : ℕ}

/-! ## The full vector of a row -/

section Writing

variable {ts : List (Int64 × Binary64)} {xs : List Binary64}

theorem length_writing (ts : List (Int64 × Binary64)) (xs : List Binary64) :
    (ts.foldl (fun xs t => xs.set t.1.toInt.toNat t.2) xs).length = xs.length := by
  induction ts generalizing xs with
  | nil => rfl
  | cons t ts ih => rw [List.foldl_cons, ih, List.length_set]

/-- What no entry names keeps its value. -/
theorem getElem?_writing_of_not_mem {j : ℕ} (h : ∀ t ∈ ts, t.1.toInt.toNat ≠ j) :
    (ts.foldl (fun xs t => xs.set t.1.toInt.toNat t.2) xs)[j]? = xs[j]? := by
  induction ts generalizing xs with
  | nil => rfl
  | cons t ts ih =>
    obtain ⟨ht, hts⟩ := List.forall_mem_cons.mp h
    rw [List.foldl_cons, ih hts, List.getElem?_set_ne ht]

/-- **An entry's value stands at its position**, if no other entry names the same one. -/
theorem getElem?_writing_of_mem (hdistinct : (ts.map fun t => t.1.toInt.toNat).Nodup)
    {t : Int64 × Binary64} (ht : t ∈ ts) (hlt : t.1.toInt.toNat < xs.length) :
    (ts.foldl (fun xs t => xs.set t.1.toInt.toNat t.2) xs)[t.1.toInt.toNat]? = some t.2 := by
  induction ts generalizing xs with
  | nil => cases ht
  | cons s ts ih =>
    rw [List.map_cons, List.nodup_cons] at hdistinct
    obtain ⟨hfresh, hdistinct⟩ := hdistinct
    rw [List.foldl_cons]
    rcases List.mem_cons.mp ht with rfl | ht
    · -- the entries behind name other positions
      have hothers : ∀ s ∈ ts, s.1.toInt.toNat ≠ t.1.toInt.toNat := by
        intro s hs heq
        exact hfresh (heq ▸ List.mem_map_of_mem hs)
      rw [getElem?_writing_of_not_mem hothers, List.getElem?_set_self hlt]
    · exact ih hdistinct ht (by rwa [List.length_set])

end Writing

/-- The entries of a row name different positions. -/
theorem Fits.nodup_positions (hr : r.Fits n) : (r.terms.map fun t => t.1.toInt.toNat).Nodup := by
  have hindices : r.terms.map Prod.fst = r.indices := List.map_fst_zip (Nat.le_of_eq hr.lengths)
  rw [show (fun t : Int64 × Binary64 => t.1.toInt.toNat) = (fun i : Int64 => i.toInt.toNat) ∘ Prod.fst from rfl,
    ← List.map_map, hindices]
  refine hr.distinct.map_on fun i hi j hj heq => Int64.toInt_inj.mp ?_
  have hi := (hr.inRange i hi).1
  have hj := (hr.inRange j hj).1
  omega

theorem Fits.position_lt (hr : r.Fits n) {t : Int64 × Binary64} (ht : t ∈ r.terms) :
    t.1.toInt.toNat < n := by
  have hrange := hr.inRange t.1 (List.of_mem_zip ht).1
  omega

@[simp] theorem length_scatter (n : ℕ) (r : Row) : (r.scatter n).length = n := by
  rw [scatter, length_writing, List.length_replicate]

/-- **At the column of an entry** stands its coefficient. -/
theorem getElem?_scatter_of_mem (hr : r.Fits n) {t : Int64 × Binary64} (ht : t ∈ r.terms) :
    (r.scatter n)[t.1.toInt.toNat]? = some t.2 := by
  refine getElem?_writing_of_mem hr.nodup_positions ht ?_
  rw [List.length_replicate]
  exact hr.position_lt ht

/-- **At all other columns** stands zero. -/
theorem getElem?_scatter_of_not_mem {j : ℕ} (hj : j < n) (h : ∀ t ∈ r.terms, t.1.toInt.toNat ≠ j) :
    (r.scatter n)[j]? = some Binary64.zero := by
  rw [scatter, getElem?_writing_of_not_mem h, List.getElem?_replicate, if_pos hj]

/-- What stands in the vector is a coefficient of the row or zero. -/
theorem getElem?_scatter_cases (hr : r.Fits n) {j : ℕ} {c : Binary64} (h : (r.scatter n)[j]? = some c) :
    (∃ t ∈ r.terms, t.1.toInt.toNat = j ∧ t.2 = c) ∨ c = Binary64.zero := by
  obtain ⟨hj, -⟩ := List.getElem?_eq_some_iff.mp h
  rw [length_scatter] at hj
  by_cases hmem : ∃ t ∈ r.terms, t.1.toInt.toNat = j
  · obtain ⟨t, ht, rfl⟩ := hmem
    rw [getElem?_scatter_of_mem hr ht, Option.some.injEq] at h
    exact .inl ⟨t, ht, rfl, h⟩
  · rw [getElem?_scatter_of_not_mem hj fun t ht heq => hmem ⟨t, ht, heq⟩, Option.some.injEq] at h
    exact .inr h.symm

/-- The full vector of a row that fits is finite. -/
theorem Fits.finite_scatter (hr : r.Fits n) : ∀ x ∈ r.scatter n, x.isFinite = true := by
  intro x hx
  obtain ⟨j, hj⟩ := List.mem_iff_getElem?.mp hx
  rcases getElem?_scatter_cases hr hj with ⟨t, ht, -, rfl⟩ | rfl
  · exact hr.finite _ (List.of_mem_zip ht).2
  · rfl

/-! ## The nonzeros of a full vector -/

section Nonzeros

variable {xs : List Binary64}

theorem terms_ofDense (xs : List Binary64) : (ofDense xs).terms =
    (xs.zipIdx.filter fun p => !p.1.same Binary64.zero).map fun p => (Int64.ofNat p.2, p.1) :=
  List.zip_map' ..

/-- **The entries that are kept** are the nonzero ones, each with its position. -/
theorem mem_terms_ofDense_iff {i : Int64} {c : Binary64} :
    (i, c) ∈ (ofDense xs).terms ↔
      ∃ j, i = Int64.ofNat j ∧ xs[j]? = some c ∧ c.same Binary64.zero = false := by
  rw [terms_ofDense, List.mem_map]
  constructor
  · rintro ⟨⟨x, j⟩, hp, hpair⟩
    obtain ⟨hmem, hne⟩ := List.mem_filter.mp hp
    obtain ⟨rfl, rfl⟩ := Prod.mk.inj hpair
    exact ⟨j, rfl, List.mk_mem_zipIdx_iff_getElem?.mp hmem, by simpa using hne⟩
  · rintro ⟨j, rfl, hget, hne⟩
    refine ⟨(c, j), List.mem_filter.mpr ⟨List.mk_mem_zipIdx_iff_getElem?.mpr hget, ?_⟩, rfl⟩
    simpa using hne

/-- **They are kept in increasing order.** -/
theorem pairwise_ofDense (hlength : xs.length ≤ Int64.maxValue.toInt) :
    (ofDense xs).indices.Pairwise (· < ·) := by
  refine List.pairwise_map.mpr (((pairwise_zipIdx xs).filter _).imp_of_mem ?_)
  intro p q hp hq hpq
  have hp := List.snd_lt_of_mem_zipIdx (List.mem_filter.mp hp).1
  have hq := List.snd_lt_of_mem_zipIdx (List.mem_filter.mp hq).1
  rw [Int64.lt_iff_toInt_lt, toInt_ofNat (by omega), toInt_ofNat (by omega)]
  omega

/-- **Writing the nonzeros out gives the vector back**, up to the signs of zeros. -/
theorem scatter_ofDense (hlength : xs.length ≤ Int64.maxValue.toInt)
    (hfinite : ∀ x ∈ xs, x.isFinite = true) :
    sameNumbers ((ofDense xs).scatter xs.length) xs = true := by
  have hfits := fits_ofDense hlength hfinite
  refine sameNumbers_iff_forall₂.mpr (List.forall₂_iff_get.mpr ⟨length_scatter _ _, fun j hj hjx => ?_⟩)
  show ((ofDense xs).scatter xs.length)[j].same xs[j] = true
  have hposition : (Int64.ofNat j).toInt.toNat = j := by
    rw [toInt_ofNat (by omega)]
    omega
  cases hzero : xs[j].same Binary64.zero with
  | false =>
    have hterm : (Int64.ofNat j, xs[j]) ∈ (ofDense xs).terms :=
      mem_terms_ofDense_iff.mpr ⟨j, rfl, List.getElem?_eq_getElem hjx, hzero⟩
    have hget := getElem?_scatter_of_mem hfits hterm
    rw [hposition, List.getElem?_eq_getElem hj, Option.some.injEq] at hget
    rw [hget]
    exact Binary64.same_self (hfinite _ (List.getElem_mem hjx))
  | true =>
    -- a term at this position would be a nonzero of the vector
    have hnone : ∀ t ∈ (ofDense xs).terms, t.1.toInt.toNat ≠ j := by
      intro t ht heq
      obtain ⟨k, hk, hget, hne⟩ := mem_terms_ofDense_iff.mp ht
      obtain ⟨hlt, hvalue⟩ := List.getElem?_eq_some_iff.mp hget
      rw [hk, toInt_ofNat (by omega)] at heq
      obtain rfl : k = j := by omega
      rw [hvalue, hne] at hzero
      cases hzero
    have hget := getElem?_scatter_of_not_mem hjx hnone
    rw [List.getElem?_eq_getElem hj, Option.some.injEq] at hget
    rw [hget, Binary64.same_comm]
    exact hzero

end Nonzeros

/-- A row is told by its entries, as they come. -/
theorem eq_of_terms {s : Row} (hr : r.Fits n) (hs : s.Fits n) (h : r.terms = s.terms) : r = s := by
  have hindices : r.indices = s.indices := by
    rw [← List.map_fst_zip (Nat.le_of_eq hr.lengths), ← List.map_fst_zip (Nat.le_of_eq hs.lengths)]
    exact congrArg (List.map Prod.fst) h
  have hcoeffs : r.coeffs = s.coeffs := by
    rw [← List.map_snd_zip (Nat.le_of_eq hr.lengths.symm), ← List.map_snd_zip (Nat.le_of_eq hs.lengths.symm)]
    exact congrArg (List.map Prod.snd) h
  exact Row.ext hindices hcoeffs

/-! ## Rows stored as full vectors -/

/-- **The row as it is stored when it comes as a full vector** of length `n`. -/
def asDense (n : ℕ) (r : Row) : Row := ofDense (r.scatter n)

variable (hn : (n : Int) ≤ Int64.maxValue.toInt)
include hn

theorem Fits.asDense (hr : r.Fits n) : (r.asDense n).Fits n := by
  have hfits : (r.asDense n).Fits (r.scatter n).length :=
    fits_ofDense (by rwa [length_scatter]) hr.finite_scatter
  rwa [length_scatter] at hfits

theorem pairwise_asDense (r : Row) : (r.asDense n).indices.Pairwise (· < ·) :=
  pairwise_ofDense (by rwa [length_scatter])

/-- Written out, the two rows are the same vector. -/
theorem Fits.scatter_asDense (hr : r.Fits n) :
    sameNumbers ((r.asDense n).scatter n) (r.scatter n) = true := by
  have hback : sameNumbers ((r.asDense n).scatter (r.scatter n).length) (r.scatter n) = true :=
    scatter_ofDense (by rwa [length_scatter]) hr.finite_scatter
  rwa [length_scatter] at hback

/-- **The entries of the stored row** are the nonzeros of the row, under the same columns. -/
theorem Fits.mem_terms_asDense_iff (hr : r.Fits n) {t : Int64 × Binary64} :
    t ∈ (r.asDense n).terms ↔ t ∈ r.terms ∧ t.2.same Binary64.zero = false := by
  obtain ⟨i, c⟩ := t
  rw [Row.asDense, mem_terms_ofDense_iff]
  constructor
  · rintro ⟨j, rfl, hget, hne⟩
    rcases getElem?_scatter_cases hr hget with ⟨⟨k, d⟩, ht, hposition, rfl⟩ | rfl
    · have hk := (hr.inRange k (List.of_mem_zip ht).1)
      have hposition : k.toInt.toNat = j := hposition
      have hj : Int64.ofNat j = k := by
        refine Int64.toInt_inj.mp ?_
        rw [toInt_ofNat (by omega)]
        omega
      rw [hj]
      exact ⟨ht, hne⟩
    · cases hne
  · rintro ⟨ht, hne⟩
    have hi := (hr.inRange i (List.of_mem_zip ht).1)
    refine ⟨i.toInt.toNat, Int64.toInt_inj.mp ?_, getElem?_scatter_of_mem hr ht, hne⟩
    rw [toInt_ofNat (by omega)]
    omega

/-! ## Rows that stay as they are -/

/-- **`r.Canonical n`** — a row of `n` columns without zeros and in increasing order of columns. -/
structure Canonical (n : ℕ) (r : Row) : Prop where
  fits : r.Fits n
  increasing : r.indices.Pairwise (· < ·)
  nonzero : ∀ c ∈ r.coeffs, c.same Binary64.zero = false

instance (n : ℕ) (r : Row) : Decidable (r.Canonical n) :=
  decidable_of_iff (r.Fits n ∧ r.indices.Pairwise (· < ·) ∧ ∀ c ∈ r.coeffs, c.same Binary64.zero = false)
    ⟨fun h => ⟨h.1, h.2.1, h.2.2⟩, fun h => ⟨h.fits, h.increasing, h.nonzero⟩⟩

/-- **Such a row is stored as it is** when it comes as a full vector. -/
theorem Canonical.asDense_eq (hr : r.Canonical n) : r.asDense n = r := by
  have hdense := hr.fits.asDense hn
  have hsorted : ∀ {s : Row}, s.Fits n → s.indices.Pairwise (· < ·) → s.terms.Pairwise fun t u => t.1 < u.1 := by
    intro s hs h
    rwa [← List.map_fst_zip (Nat.le_of_eq hs.lengths), List.pairwise_map] at h
  have hperm : (r.asDense n).terms.Perm r.terms := by
    refine (List.perm_ext_iff_of_nodup (.of_map _ hdense.nodup_positions) (.of_map _ hr.fits.nodup_positions)).mpr ?_
    intro t
    rw [hr.fits.mem_terms_asDense_iff hn]
    exact ⟨fun h => h.1, fun h => ⟨h, hr.nonzero _ (List.of_mem_zip h).2⟩⟩
  refine eq_of_terms hdense hr.fits (hperm.eq_of_pairwise ?_ (hsorted hdense (pairwise_asDense hn r))
    (hsorted hr.fits hr.increasing))
  intro t u _ _ htu hut
  exact absurd hut (Int64.not_lt.mpr (Int64.le_of_lt htu))

end Row

end Milp
