import Mathlib
import Milp.Proofs.Binary64.Exact

/-!
# Rounding to whole numbers is exact

Whole numbers near a number of the format are numbers of the format themselves: a size of 2⁵² or more
has no fraction, and below that every whole number has few enough bits. So `floor` and `ceil` never round
a second time.

* `ofRatio_one` — a representable size is its own rounding.
* `representable_whole` — whole numbers less than one away from a size of the format.
* `floor_exact` and `ceil_exact` — both are exact on finite numbers.
-/

namespace Milp.Binary64

/-! ## Rounding what needs none -/

theorem roundQuotient_of_dvd {num den : ℕ} (hden : 0 < den) (h : den ∣ num) :
    roundQuotient num den = num / den := by
  have hrest : 2 * (num % den) < den := by
    rw [Nat.mod_eq_zero_of_dvd h]
    exact hden
  exact if_pos hrest

/-- A representable number of units has no bits below the spacing of the format. -/
theorem roundUnits_one {n : ℕ} (h : Representable n) : roundUnits n 1 = n := by
  have hpos : 0 < Nat.pow 2 (spacing n 1) := Nat.two_pow_pos _
  have hdvd : Nat.pow 2 (spacing n 1) ∣ n := by
    rw [spacing, Nat.div_one]
    exact h.2
  rw [roundUnits, Nat.one_mul, roundQuotient_of_dvd hpos hdvd]
  exact Nat.div_mul_cancel hdvd

/-- **A representable size is its own rounding.** -/
theorem ofRatio_one (s : Bool) {n : ℕ} (h : Representable n) : ofRatio s n 1 = finite s ⟨n, h⟩ := by
  have hround := roundUnits_one h
  unfold ofRatio
  rw [dif_pos Nat.one_pos, dif_pos (by rw [hround]; exact h.1)]
  congr 2

/-! ## Whole numbers of the format -/

/-- The exponent of one stays a variable, so that no proof computes the power. -/
theorem exists_unitsPerOne_eq : ∃ e, e = 1074 ∧ unitsPerOne = 2 ^ e := by
  refine ⟨_, rfl, ?_⟩
  unfold unitsPerOne
  generalize 1074 = e
  rfl

theorem exists_sizeLimit_eq : ∃ e, e = 2098 ∧ sizeLimit = 2 ^ e := by
  refine ⟨_, rfl, ?_⟩
  unfold sizeLimit
  generalize 2098 = e
  rfl

/-- The limit leaves much room above 2⁵². -/
theorem two_pow_mul_unitsPerOne_lt : 2 ^ 52 * unitsPerOne < sizeLimit := by
  obtain ⟨e, he, hunits⟩ := exists_unitsPerOne_eq
  obtain ⟨l, hl, hlimit⟩ := exists_sizeLimit_eq
  rw [hunits, hlimit, ← pow_add]
  exact Nat.pow_lt_pow_right Nat.one_lt_two (by omega)

/-- **From 2⁵² on all numbers are whole.** -/
theorem unitsPerOne_dvd {n : ℕ} (hn : Representable n) (h : 2 ^ 52 * unitsPerOne ≤ n) :
    unitsPerOne ∣ n := by
  obtain ⟨e, he, hunits⟩ := exists_unitsPerOne_eq
  have hpos : 0 < 2 ^ 52 * unitsPerOne := Nat.mul_pos (Nat.two_pow_pos _) unitsPerOne_pos
  have hne : n ≠ 0 := by omega
  rw [hunits, ← pow_add] at h
  have hlog := (Nat.le_log2 hne).mpr h
  rw [hunits]
  exact dvd_trans (Nat.pow_dvd_pow 2 (by omega)) hn.2

/-- **Whole numbers less than one away from a size of the format** are sizes of the format. -/
theorem representable_whole {n k : ℕ} (hn : Representable n) (hbelow : k * unitsPerOne < n + unitsPerOne)
    (habove : n < k * unitsPerOne + unitsPerOne) : Representable (k * unitsPerOne) := by
  rcases Nat.lt_or_ge n (2 ^ 52 * unitsPerOne) with hsmall | hlarge
  · have hk : k < 2 ^ 52 + 1 := by
      refine Nat.lt_of_mul_lt_mul_right (a := unitsPerOne) ?_
      rw [Nat.add_mul, Nat.one_mul]
      omega
    have hlimit : k * unitsPerOne < sizeLimit :=
      Nat.lt_of_le_of_lt (Nat.mul_le_mul_right _ (Nat.lt_succ_iff.mp hk)) two_pow_mul_unitsPerOne_lt
    obtain ⟨e, -, hunits⟩ := exists_unitsPerOne_eq
    rw [hunits] at hlimit ⊢
    exact representable_mul_two_pow (le_trans (Nat.lt_succ_iff.mp hk) (by norm_num)) hlimit
  · -- such a size is whole already, so there is no other whole number so near
    obtain ⟨c, rfl⟩ := unitsPerOne_dvd hn hlarge
    have hle : k < c + 1 := Nat.lt_of_mul_lt_mul_left (a := unitsPerOne) (by linarith)
    have hge : c < k + 1 := Nat.lt_of_mul_lt_mul_left (a := unitsPerOne) (by linarith)
    obtain rfl : k = c := by omega
    rwa [Nat.mul_comm]

/-- **A whole number less than one away from a finite number**, with the sign of that, is not rounded. -/
theorem ofWhole_exact {s : Bool} {m : Size} {n : ℤ}
    (hbelow : n * unitsPerOne < (finite s m).units + unitsPerOne)
    (habove : (finite s m).units < n * unitsPerOne + unitsPerOne) :
    (ofWhole s n).isFinite = true ∧ (ofWhole s n).units = n * unitsPerOne := by
  have hpos : (0 : ℤ) < unitsPerOne := by exact_mod_cast unitsPerOne_pos
  have hunits : (finite s m).units = if s then -(m.units : ℤ) else m.units := by cases s <;> rfl
  -- so near to the number, `n` has its sign or is zero
  have hn : n = if s then -(n.natAbs : ℤ) else n.natAbs := by
    cases s with
    | false =>
      have : -1 < n := by
        refine lt_of_mul_lt_mul_right ?_ hpos.le
        simp only [hunits, Bool.false_eq_true, if_false] at habove
        omega
      simp only [Bool.false_eq_true, if_false]
      omega
    | true =>
      have : n < 1 := by
        refine lt_of_mul_lt_mul_right ?_ hpos.le
        simp only [hunits, if_true] at hbelow
        omega
      simp only [if_true]
      omega
  have hsize : Representable (n.natAbs * unitsPerOne) := by
    generalize n.natAbs = k at hn
    rw [hn, hunits] at hbelow habove
    cases s with
    | false =>
      simp only [Bool.false_eq_true, if_false] at hbelow habove
      exact representable_whole m.representable (by exact_mod_cast hbelow) (by exact_mod_cast habove)
    | true =>
      simp only [if_true] at hbelow habove
      refine representable_whole m.representable ?_ ?_ <;> zify <;> linarith
  rw [ofWhole, ofRatio_one s hsize]
  refine ⟨rfl, ?_⟩
  conv_rhs => rw [hn]
  cases s <;> simp [units]

/-! ## Floor and ceiling -/

theorem toRat_of_units {x : Binary64} {n : ℤ} (h : x.units = n * unitsPerOne) : x.toRat = n := by
  rw [toRat_eq, h, Int.cast_mul, Int.cast_natCast, mul_div_cancel_right₀ _ unitsPerOne_cast_pos.ne']

/-- **The floor of a finite number is exact.** -/
theorem floor_exact {x : Binary64} (h : x.isFinite = true) :
    x.floor.isFinite = true ∧ x.floor.toRat = ⌊x.toRat⌋ := by
  cases x with
  | nan => cases h
  | infinite s => cases h
  | finite s m =>
    have hpos : (0 : ℤ) < unitsPerOne := by exact_mod_cast unitsPerOne_pos
    have hfloor : (finite s m).floor = ofWhole s ((finite s m).units / unitsPerOne) := by
      rw [← Int.fdiv_eq_ediv_of_nonneg _ hpos.le]
      rfl
    have hle := Int.ediv_mul_le (finite s m).units hpos.ne'
    have hlt := Int.lt_ediv_add_one_mul_self (finite s m).units hpos
    rw [Int.add_mul, Int.one_mul] at hlt
    obtain ⟨hfinite, hunits⟩ := ofWhole_exact (s := s) (m := m) (by omega) hlt
    rw [hfloor]
    refine ⟨hfinite, ?_⟩
    rw [toRat_of_units hunits, toRat_eq, Rat.floor_intCast_div_natCast]

/-- **The ceiling of a finite number is exact.** -/
theorem ceil_exact {x : Binary64} (h : x.isFinite = true) :
    x.ceil.isFinite = true ∧ x.ceil.toRat = ⌈x.toRat⌉ := by
  cases x with
  | nan => cases h
  | infinite s => cases h
  | finite s m =>
    have hpos : (0 : ℤ) < unitsPerOne := by exact_mod_cast unitsPerOne_pos
    have hceil : (finite s m).ceil = ofWhole s (-(-(finite s m).units / unitsPerOne)) := by
      rw [← Int.fdiv_eq_ediv_of_nonneg _ hpos.le]
      rfl
    have hle := Int.ediv_mul_le (-(finite s m).units) hpos.ne'
    have hlt := Int.lt_ediv_add_one_mul_self (-(finite s m).units) hpos
    rw [Int.add_mul, Int.one_mul] at hlt
    obtain ⟨hfinite, hunits⟩ := ofWhole_exact (s := s) (m := m)
      (n := -(-(finite s m).units / unitsPerOne)) (by linarith) (by linarith)
    rw [hceil]
    refine ⟨hfinite, ?_⟩
    have hneg : ((-(finite s m).units : ℤ) : ℚ) / unitsPerOne = -(finite s m).toRat := by
      rw [toRat_eq, Int.cast_neg, neg_div]
    rw [toRat_of_units hunits, ← Rat.floor_intCast_div_natCast, hneg, Int.floor_neg, Int.neg_neg]

end Milp.Binary64
