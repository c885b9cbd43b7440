import Milp.Proofs.Binary64.Between
import Milp.Random.Congruential

/-!
# What is drawn

Which word a generator comes up with is left open here. Whatever the words are, numbers between zero and one stay
there, positions stay below their limit, and a choice of several positions has no position twice.

* `Source.Keeps` — draws that keep to what is asked, where numbers are asked for from some ranges only.
* `Source.Lawful` — the same for every range, as long as the difference of its ends is exact: `Source.Lawful.keeps`.
* `Congruential.lawful` — the generator keeps these laws.
-/

namespace Milp.Random

/-- **The laws of draws**, for draws from any state. -/
structure Source.Lawful {σ : Type} (source : Source σ) : Prop where
  /-- a number between two numbers is the first one and some part of the difference -/
  uniform : ∀ lo hi s, ∃ x : Binary64, x.AtMost 1 ∧ x.isNegative = false ∧
    (source.uniform lo hi s).1 = lo.add ((hi.sub lo).mul x)
  choose : ∀ n k s, k ≤ n → (source.choose n k s).1.length = k ∧ (source.choose n k s).1.Nodup ∧
    ∀ v ∈ (source.choose n k s).1, v < n
  below : ∀ n s, 0 < n → (source.below n s).1 < n

/-- **A source that keeps to what is asked**, whatever else it does: numbers are drawn from the given ranges. -/
structure Source.Keeps {σ : Type} (ranges : List (Binary64 × Binary64)) (source : Source σ) : Prop where
  uniform : ∀ r ∈ ranges, ∀ s,
    r.1.le (source.uniform r.1 r.2 s).1 = true ∧ (source.uniform r.1 r.2 s).1.le r.2 = true
  choose : ∀ n k s, k ≤ n → (source.choose n k s).1.length = k ∧ (source.choose n k s).1.Nodup ∧
    ∀ v ∈ (source.choose n k s).1, v < n
  below : ∀ n s, 0 < n → (source.below n s).1 < n

/-- A lawful source keeps to all ranges whose difference is exact. -/
theorem Source.Lawful.keeps {σ : Type} {source : Source σ} (h : source.Lawful) {ranges : List (Binary64 × Binary64)}
    (hranges : ∀ r ∈ ranges, Binary64.HaveDifference r.1 r.2) : source.Keeps ranges where
  uniform r hr s := by
    obtain ⟨x, hx, hsign, heq⟩ := h.uniform r.1 r.2 s
    rw [heq]
    exact Binary64.between_add_mul (hranges r hr) hx hsign
  choose := h.choose
  below := h.below

namespace Congruential

/-! ## Numbers -/

/-- A 64-bit word has 53 bits above its last eleven. -/
theorem toNat_shiftRight_lt (w : UInt64) : (w >>> 11).toNat < 2 ^ 53 := by
  have hw : w.toNat < 2 ^ 64 := w.toNat_lt
  rw [UInt64.toNat_shiftRight]
  show w.toNat >>> 11 < 2 ^ 53
  rw [Nat.shiftRight_eq_div_pow]
  omega

/-- 2⁵³ multiples of 2⁻⁵³ make one. -/
theorem mul_pow_le_unitsPerOne {k : ℕ} (hk : k < 2 ^ 53) : k * Nat.pow 2 1021 ≤ unitsPerOne := by
  obtain ⟨e, he, hunits⟩ := Binary64.exists_unitsPerOne_eq
  generalize hs : 1021 = s
  rw [Nat.pow_eq, hunits, show e = 53 + s by omega, pow_add]
  exact Nat.mul_le_mul_right _ hk.le

theorem unit_spec (g : Congruential) : g.unit.1.AtMost 1 ∧ g.unit.1.isNegative = false := by
  have hword := mul_pow_le_unitsPerOne (toNat_shiftRight_lt g.word64.1)
  generalize hk : (g.word64.1 >>> 11).toNat * Nat.pow 2 1021 = k at hword
  have hunit : g.unit.1 = Binary64.ofUnits k := by
    rw [← hk, Int.natCast_mul]
    rfl
  rw [hunit]
  refine ⟨Binary64.atMost_ofRatio (Binary64.representable_small (by decide)) Nat.one_pos ?_, ?_⟩
  · rw [Int.natAbs_natCast]
    omega
  · exact Binary64.isNegative_ofUnits (Int.natCast_nonneg k)

/-! ## Positions -/

theorem scaled_lt {n : ℕ} (hn : 0 < n) (tries : ℕ) (g : Congruential) : (scaled n tries g).1 < n := by
  induction tries generalizing g with
  | zero => exact hn
  | succ tries ih =>
    have hword : g.word32.1.toNat < 2 ^ 32 := g.word32.1.toNat_lt
    rw [scaled]
    dsimp only
    split
    · exact ih _
    · show g.word32.1.toNat * n / Nat.pow 2 32 < n
      rw [Nat.pow_eq]
      exact Nat.div_lt_of_lt_mul (Nat.mul_lt_mul_of_pos_right hword hn)

theorem below_lt {n : ℕ} (hn : 0 < n) (g : Congruential) : (below n g).1 < n := by
  unfold below
  split
  · exact hn
  · exact scaled_lt hn mostTries g

/-! ## Choices of several positions -/

/-- **Different numbers for upper limits that increase by one.** A limit is larger than everything chosen before
it, so it is free when the number that was drawn is taken. -/
theorem distinct_spec (k : ℕ) {limit : ℕ} {chosen : List ℕ} (hchosen : chosen.Nodup)
    (hlt : ∀ v ∈ chosen, v < limit) (g : Congruential) :
    let r := (distinct (List.range' limit k) chosen g).1
    r.length = chosen.length + k ∧ r.Nodup ∧ ∀ v ∈ r, v < limit + k := by
  induction k generalizing limit chosen g with
  | zero => exact ⟨rfl, hchosen, hlt⟩
  | succ k ih =>
    intro r
    have hdrawn : (below (limit + 1) g).1 < limit + 1 := below_lt (Nat.succ_pos limit) g
    obtain ⟨v, hv, hvlt, hnew⟩ : ∃ v, (if chosen.contains (below (limit + 1) g).1 then limit
        else (below (limit + 1) g).1) = v ∧ v < limit + 1 ∧ v ∉ chosen := by
      refine ⟨_, rfl, ?_⟩
      split
      · refine ⟨Nat.lt_succ_self limit, fun hmem => ?_⟩
        exact Nat.lt_irrefl _ (hlt limit hmem)
      · rename_i hfree
        exact ⟨hdrawn, by simpa using hfree⟩
    have hr : r = (distinct (List.range' (limit + 1) k) (chosen ++ [v]) (below (limit + 1) g).2).1 := by
      rw [← hv]
      rfl
    have hnodup : (chosen ++ [v]).Nodup := by
      refine List.nodup_append.mpr ⟨hchosen, List.nodup_singleton v, ?_⟩
      intro a ha b hb hab
      rw [List.mem_singleton.mp hb] at hab
      exact hnew (hab ▸ ha)
    have hbelow : ∀ a ∈ chosen ++ [v], a < limit + 1 := by
      intro a ha
      rcases List.mem_append.mp ha with ha | ha
      · exact Nat.lt_succ_of_lt (hlt a ha)
      · rwa [List.mem_singleton.mp ha]
    obtain ⟨hlength, hdistinct, hbound⟩ := ih hnodup hbelow (below (limit + 1) g).2
    rw [← hr] at hlength hdistinct hbound
    rw [List.length_append, List.length_singleton] at hlength
    refine ⟨by omega, hdistinct, fun a ha => ?_⟩
    have := hbound a ha
    omega

theorem swapIfInBounds_perm (xs : Array ℕ) (i j : ℕ) : (xs.swapIfInBounds i j).Perm xs := by
  unfold Array.swapIfInBounds
  split
  · split
    · exact Array.swap_perm ..
    · exact .refl _
  · exact .refl _

theorem shuffle_perm (steps place : ℕ) (xs : Array ℕ) (g : Congruential) :
    (shuffle steps place xs g).1.toList.Perm xs.toList := by
  induction steps generalizing place xs g with
  | zero => exact .refl _
  | succ steps ih => exact (ih _ _ _).trans (swapIfInBounds_perm xs place _).toList

theorem chooseFew_spec {n k : ℕ} (h : k ≤ n) (g : Congruential) :
    (chooseFew n k g).1.length = k ∧ (chooseFew n k g).1.Nodup ∧ ∀ v ∈ (chooseFew n k g).1, v < n := by
  have hlimits : ((List.range k).map fun i => n - k + i) = List.range' (n - k) k :=
    (List.range'_eq_map_range ..).symm
  obtain ⟨hlength, hnodup, hbelow⟩ := distinct_spec k List.nodup_nil (by simp) g
  rw [← hlimits] at hlength hnodup hbelow
  rw [List.length_nil, Nat.zero_add] at hlength
  rw [Nat.sub_add_cancel h] at hbelow
  have hperm : (chooseFew n k g).1.Perm (distinct ((List.range k).map fun i => n - k + i) [] g).1 :=
    shuffle_perm (k - 1) (k - 1) _ _
  exact ⟨hperm.length_eq.trans hlength, hperm.nodup_iff.mpr hnodup, fun v hv => hbelow v (hperm.mem_iff.mp hv)⟩

theorem chooseMany_spec {n k : ℕ} (h : k ≤ n) (g : Congruential) :
    (chooseMany n k g).1.length = k ∧ (chooseMany n k g).1.Nodup ∧ ∀ v ∈ (chooseMany n k g).1, v < n := by
  have hperm := shuffle_perm (n - max (n - k) 1) (n - 1) (Array.range n) g
  rw [Array.toList_range] at hperm
  generalize hall : (shuffle (n - max (n - k) 1) (n - 1) (Array.range n) g).1.toList = all at hperm
  have hchosen : (chooseMany n k g).1 = all.drop (n - k) := by
    rw [← hall]
    rfl
  rw [hchosen]
  refine ⟨?_, (hperm.nodup_iff.mpr List.nodup_range).sublist (List.drop_sublist _ _), fun v hv => ?_⟩
  · rw [List.length_drop, hperm.length_eq, List.length_range]
    omega
  · exact List.mem_range.mp (hperm.mem_iff.mp (List.mem_of_mem_drop hv))

theorem choose_spec {n k : ℕ} (h : k ≤ n) (g : Congruential) :
    (choose n k g).1.length = k ∧ (choose n k g).1.Nodup ∧ ∀ v ∈ (choose n k g).1, v < n := by
  unfold choose
  split
  · exact chooseMany_spec h g
  · exact chooseFew_spec h g

/-! ## The laws -/

/-- **The generator keeps the laws of draws**, in every state. -/
theorem lawful : source.Lawful where
  uniform _ _ g := ⟨g.unit.1, g.unit_spec.1, g.unit_spec.2, rfl⟩
  choose _ _ g h := choose_spec h g
  below _ g hn := below_lt hn g

end Congruential

end Milp.Random
