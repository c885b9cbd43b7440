import Milp.Binary64.Sum
import Milp.Proofs.Binary64.Order
import Milp.Proofs.Binary64.Whole

/-!
# How large results can be

Rounding does not cross numbers of the format: what is at most a whole number of the format before it is rounded is
at most that number afterwards. So bounds on the operands are bounds on the results, without any error terms, as
long as the bounds themselves are numbers of the format.

* `AtMost` — a finite number whose size is bounded by a whole number.
* `AtMost.add`, `AtMost.mul`, `atMost_sum`, `AtMost.roundPlaces` — bounds for results.
* `isNegative_add`, `isNegative_sum`, `isNegative_mul`, `isNegative_roundPlaces` — results without a sign.
* `ofInt_whole` and `units_ofInt_of_units` — integers are rounded to integers, or not at all.
-/

namespace Milp.Binary64

/-! ## Rounding and order -/

theorem roundQuotient_le_of_le {num den k : ℕ} (hden : 0 < den) (h : num ≤ k * den) :
    roundQuotient num den ≤ k := by
  rcases Nat.lt_or_eq_of_le h with hlt | rfl
  · exact roundQuotient_le hden hlt
  · rw [roundQuotient_of_dvd hden (Nat.dvd_mul_left den k), Nat.mul_div_cancel k hden]

/-- **Rounding does not cross a size of the format.** -/
theorem roundUnits_le {num den r : ℕ} (hden : 0 < den) (hr : Representable r) (h : num ≤ r * den) :
    roundUnits num den ≤ r := by
  have hquotient : num / den ≤ r := Nat.div_le_of_le_mul (by rwa [Nat.mul_comm])
  have hlog : (num / den).log2 ≤ r.log2 := by
    rw [Nat.log2_eq_log_two, Nat.log2_eq_log_two]
    exact Nat.log_mono_right hquotient
  -- the spacing below the size divides the size
  have hdvd : Nat.pow 2 (spacing num den) ∣ r :=
    dvd_trans (Nat.pow_dvd_pow 2 (Nat.sub_le_sub_right hlog 52)) hr.2
  have hpos : 0 < Nat.pow 2 (spacing num den) := Nat.two_pow_pos _
  unfold roundUnits
  generalize Nat.pow 2 (spacing num den) = p at hdvd hpos
  obtain ⟨k, rfl⟩ := hdvd
  rw [Nat.mul_comm p k]
  refine Nat.mul_le_mul_right p (roundQuotient_le_of_le (Nat.mul_pos hden hpos) ?_)
  calc num ≤ p * k * den := h
    _ = k * (den * p) := by ring

/-! ## Whole numbers as bounds -/

/-- A significand times a power of two, both of moderate size, is a whole number of the format. -/
theorem representable_scaled {k s : ℕ} (hk : k ≤ 2 ^ 53) (hs : s ≤ 900) :
    Representable (k * 2 ^ s * unitsPerOne) := by
  obtain ⟨e, he, hunits⟩ := exists_unitsPerOne_eq
  obtain ⟨l, hl, hlimit⟩ := exists_sizeLimit_eq
  have hpow : k * 2 ^ s * unitsPerOne = k * Nat.pow 2 (s + e) := by
    rw [hunits, Nat.mul_assoc, ← pow_add]
    rfl
  rw [hpow]
  refine representable_mul_two_pow hk ?_
  calc k * 2 ^ (s + e) ≤ 2 ^ 53 * 2 ^ (s + e) := Nat.mul_le_mul_right _ hk
    _ = 2 ^ (53 + (s + e)) := (pow_add ..).symm
    _ < sizeLimit := by
      rw [hlimit]
      exact Nat.pow_lt_pow_right Nat.one_lt_two (by omega)

theorem representable_small {k : ℕ} (hk : k ≤ 2 ^ 53) : Representable (k * unitsPerOne) := by
  have hscaled := representable_scaled hk (Nat.zero_le 900)
  rwa [pow_zero, Nat.mul_one] at hscaled

/-- **`x.AtMost n`** — a finite number whose size is at most the whole number `n`. -/
structure AtMost (n : ℕ) (x : Binary64) : Prop where
  isFinite : x.isFinite = true
  size : x.units.natAbs ≤ n * unitsPerOne

variable {x y : Binary64} {a b n : ℕ}

theorem AtMost.mono (hx : x.AtMost a) (h : a ≤ b) : x.AtMost b :=
  ⟨hx.isFinite, hx.size.trans (Nat.mul_le_mul_right _ h)⟩

theorem natAbs_units (s : Bool) (m : Size) : (finite s m).units.natAbs = m.units := by
  cases s <;> simp [units]

theorem atMost_finite {s : Bool} {m : Size} : (finite s m).AtMost n ↔ m.units ≤ n * unitsPerOne := by
  constructor
  · intro h
    exact natAbs_units s m ▸ h.size
  · intro h
    exact ⟨rfl, (natAbs_units s m).symm ▸ h⟩

/-- A number with a bound is a sign with a size. -/
theorem AtMost.exists_eq (hx : x.AtMost n) : ∃ s m, x = finite s m ∧ m.units ≤ n * unitsPerOne := by
  have hfinite := hx.isFinite
  cases x with
  | nan => cases hfinite
  | infinite s => cases hfinite
  | finite s m => exact ⟨s, m, rfl, atMost_finite.mp hx⟩

/-- **A bound on a ratio is a bound on its rounding.** -/
theorem atMost_ofRatio {s : Bool} {num den : ℕ} (hn : Representable (n * unitsPerOne)) (hden : 0 < den)
    (h : num ≤ n * unitsPerOne * den) : (ofRatio s num den).AtMost n := by
  have hround := roundUnits_le hden hn h
  unfold ofRatio
  rw [dif_pos hden, dif_pos (hround.trans_lt hn.1)]
  exact atMost_finite.mpr hround

/-- Small whole numbers are not rounded. -/
theorem ofNat_eq {k : ℕ} (hk : k ≤ 2 ^ 53) : ofNat k = finite false ⟨k * unitsPerOne, representable_small hk⟩ :=
  ofRatio_one false (representable_small hk)

theorem atMost_ofInt {k : ℤ} (hk : k.natAbs ≤ 2 ^ 53) : (ofInt k).AtMost k.natAbs :=
  atMost_ofRatio (representable_small hk) Nat.one_pos (Nat.mul_one _).ge

theorem atMost_ofNat {k : ℕ} (hk : k ≤ 2 ^ 53) : (ofNat k).AtMost k := atMost_ofInt (k := (k : ℤ)) hk

/-! ## Bounds for results -/

theorem AtMost.add (hx : x.AtMost a) (hy : y.AtMost b) (hab : Representable ((a + b) * unitsPerOne)) :
    (x.add y).AtMost (a + b) := by
  have hsize : (x.units + y.units).natAbs ≤ (a + b) * unitsPerOne * 1 := by
    have hx := hx.size
    have hy := hy.size
    rw [Nat.mul_one, Nat.add_mul]
    omega
  obtain ⟨s, m, rfl, -⟩ := hx.exists_eq
  obtain ⟨t, n, rfl, -⟩ := hy.exists_eq
  unfold Binary64.add
  dsimp only
  split
  · exact atMost_finite.mpr (Nat.zero_le _)
  · exact atMost_ofRatio hab Nat.one_pos hsize

theorem AtMost.mul (hx : x.AtMost a) (hy : y.AtMost b) (hab : Representable (a * b * unitsPerOne)) :
    (x.mul y).AtMost (a * b) := by
  obtain ⟨s, m, rfl, hm⟩ := hx.exists_eq
  obtain ⟨t, n, rfl, hn⟩ := hy.exists_eq
  refine atMost_ofRatio hab unitsPerOne_pos ?_
  calc m.units * n.units ≤ a * unitsPerOne * (b * unitsPerOne) := Nat.mul_le_mul hm hn
    _ = a * b * unitsPerOne * unitsPerOne := by ring

/-- In whatever order terms are added, their sum is at most their number times a bound for each of them. -/
theorem SumTree.atMost_value {t : SumTree} (hterms : ∀ x ∈ t.terms, x.AtMost a)
    (hscale : ∀ j ≤ t.terms.length, Representable (j * a * unitsPerOne)) :
    t.value.AtMost (t.terms.length * a) := by
  induction t with
  | zero => exact atMost_finite.mpr (Nat.zero_le _)
  | term x => exact (Nat.one_mul a).symm ▸ hterms x (List.mem_singleton_self x)
  | plus s t hs ht =>
    simp only [terms, List.length_append, List.forall_mem_append] at hterms hscale ⊢
    have hleft := hs hterms.1 fun j hj => hscale j (hj.trans (Nat.le_add_right _ _))
    have hright := ht hterms.2 fun j hj => hscale j (hj.trans (Nat.le_add_left _ _))
    have hwhole := hscale _ le_rfl
    rw [Nat.add_mul] at hwhole ⊢
    exact hleft.add hright hwhole

/-- **A sum is at most the number of its terms times a bound for each of them.** -/
theorem atMost_sum {xs : List Binary64} (hxs : ∀ x ∈ xs, x.AtMost a)
    (hscale : ∀ j ≤ xs.length, Representable (j * a * unitsPerOne)) : (sum xs).AtMost (xs.length * a) := by
  have hperm := SumTree.perm_terms_pairwise xs
  have hvalue := SumTree.atMost_value (fun x hx => hxs x (hperm.mem_iff.mp hx)) (hperm.length_eq ▸ hscale)
  rw [hperm.length_eq] at hvalue
  have hzero : zero.AtMost 0 := atMost_finite.mpr (Nat.zero_le _)
  have hsum := hzero.add hvalue (by rw [Nat.zero_add]; exact hscale _ le_rfl)
  rwa [Nat.zero_add] at hsum

theorem AtMost.roundEven (hx : x.AtMost a) (ha : Representable (a * unitsPerOne)) : x.roundEven.AtMost a := by
  obtain ⟨s, m, rfl, hm⟩ := hx.exists_eq
  refine atMost_ofRatio ha Nat.one_pos ?_
  rw [Int.natAbs_natCast, Nat.mul_one]
  exact Nat.mul_le_mul_right _ (roundQuotient_le_of_le unitsPerOne_pos hm)

/-- Dividing by a whole number does not make a number larger. -/
theorem AtMost.div_ofNat (hx : x.AtMost a) (ha : Representable (a * unitsPerOne)) {k : ℕ} (hpos : 0 < k)
    (hk : k ≤ 2 ^ 53) : (x.div (ofNat k)).AtMost a := by
  obtain ⟨s, m, rfl, hm⟩ := hx.exists_eq
  have hunits : 0 < k * unitsPerOne := Nat.mul_pos hpos unitsPerOne_pos
  rw [ofNat_eq hk]
  show (if k * unitsPerOne = 0 then _ else ofRatio (s != false) (m.units * unitsPerOne) (k * unitsPerOne)).AtMost a
  rw [if_neg hunits.ne']
  refine atMost_ofRatio ha hunits ?_
  calc m.units * unitsPerOne ≤ a * unitsPerOne * unitsPerOne := Nat.mul_le_mul_right _ hm
    _ ≤ a * unitsPerOne * (k * unitsPerOne) := Nat.mul_le_mul_left _ (Nat.le_mul_of_pos_left _ hpos)

/-- **A number rounded to decimal places.** The bound has room for the number scaled by the power of ten. -/
theorem AtMost.roundPlaces (hx : x.AtMost a) {places : ℕ} (hb : 10 ^ places ≤ b) (hsmall : b ≤ 2 ^ 53)
    (hab : Representable (a * b * unitsPerOne)) : (x.roundPlaces places).AtMost (a * b) := by
  have hscale : (ofNat (10 ^ places)).AtMost b := (atMost_ofNat (hb.trans hsmall)).mono hb
  exact ((hx.mul hscale hab).roundEven hab).div_ofNat hab (Nat.pow_pos (by decide)) (hb.trans hsmall)

/-! ## Results without a sign -/

theorem isNegative_ofRatio (s : Bool) (num : ℕ) {den : ℕ} (hden : 0 < den) :
    (ofRatio s num den).isNegative = s := by
  unfold ofRatio
  rw [dif_pos hden]
  split <;> rfl

theorem isNegative_ofNat (k : ℕ) : (ofNat k).isNegative = false := by
  have hsign : decide ((k : ℤ) < 0) = false := by simp
  rw [ofNat, ofInt, hsign, isNegative_ofRatio _ _ Nat.one_pos]

theorem units_nonneg (hx : x.isNegative = false) : 0 ≤ x.units := by
  cases x with
  | nan => exact le_rfl
  | infinite s => exact le_rfl
  | finite s m =>
    obtain rfl : s = false := hx
    exact Int.natCast_nonneg _

theorem isNegative_ofUnits {k : ℤ} (hk : 0 ≤ k) : (ofUnits k).isNegative = false := by
  rw [ofUnits, isNegative_ofRatio _ _ Nat.one_pos]
  exact decide_eq_false (not_lt.mpr hk)

theorem isNegative_add (hx : x.isNegative = false) (hy : y.isNegative = false) : (x.add y).isNegative = false := by
  have hunits : 0 ≤ x.units + y.units := Int.add_nonneg (units_nonneg hx) (units_nonneg hy)
  cases x with
  | nan => rfl
  | infinite s =>
    obtain rfl : s = false := hx
    cases y with
    | nan => rfl
    | infinite t =>
      obtain rfl : t = false := hy
      rfl
    | finite t n => rfl
  | finite s m =>
    obtain rfl : s = false := hx
    cases y with
    | nan => rfl
    | infinite t => exact hy
    | finite t n =>
      show isNegative (if (finite false m).units + (finite t n).units = 0 then _ else _) = false
      split
      · rfl
      · exact isNegative_ofUnits hunits

/-- A sum of numbers without signs, in whatever order they are added. -/
theorem SumTree.isNegative_value {t : SumTree} (hterms : ∀ x ∈ t.terms, x.isNegative = false) :
    t.value.isNegative = false := by
  induction t with
  | zero => rfl
  | term x => exact hterms x (List.mem_singleton_self x)
  | plus s t hs ht =>
    obtain ⟨hleft, hright⟩ := List.forall_mem_append.mp hterms
    exact isNegative_add (hs hleft) (ht hright)

theorem isNegative_sum {xs : List Binary64} (hxs : ∀ x ∈ xs, x.isNegative = false) : (sum xs).isNegative = false :=
  isNegative_add rfl (SumTree.isNegative_value fun x hx => hxs x ((SumTree.perm_terms_pairwise xs).mem_iff.mp hx))

theorem isNegative_mul (hx : x.isNegative = false) (hy : y.isNegative = false) : (x.mul y).isNegative = false := by
  cases x with
  | nan => rfl
  | infinite s =>
    obtain rfl : s = false := hx
    cases y with
    | nan => rfl
    | infinite t =>
      obtain rfl : t = false := hy
      rfl
    | finite t n =>
      obtain rfl : t = false := hy
      show isNegative (if n.units = 0 then _ else _) = false
      split <;> rfl
  | finite s m =>
    obtain rfl : s = false := hx
    cases y with
    | nan => rfl
    | infinite t =>
      obtain rfl : t = false := hy
      show isNegative (if m.units = 0 then _ else _) = false
      split <;> rfl
    | finite t n =>
      obtain rfl : t = false := hy
      exact isNegative_ofRatio _ _ unitsPerOne_pos

theorem isNegative_roundEven (hx : x.isNegative = false) : x.roundEven.isNegative = false := by
  cases x with
  | nan => rfl
  | infinite s => exact hx
  | finite s m =>
    obtain rfl : s = false := hx
    exact isNegative_ofRatio _ _ Nat.one_pos

theorem isNegative_div_ofNat (hx : x.isNegative = false) {k : ℕ} (hpos : 0 < k) (hk : k ≤ 2 ^ 53) :
    (x.div (ofNat k)).isNegative = false := by
  have hunits : 0 < k * unitsPerOne := Nat.mul_pos hpos unitsPerOne_pos
  rw [ofNat_eq hk]
  cases x with
  | nan => rfl
  | infinite s =>
    obtain rfl : s = false := hx
    rfl
  | finite s m =>
    obtain rfl : s = false := hx
    show isNegative (if k * unitsPerOne = 0 then _ else ofRatio false _ (k * unitsPerOne)) = false
    rw [if_neg hunits.ne']
    exact isNegative_ofRatio _ _ hunits

theorem isNegative_roundPlaces (hx : x.isNegative = false) {places : ℕ} (h : 10 ^ places ≤ 2 ^ 53) :
    (x.roundPlaces places).isNegative = false := by
  have hscaled := isNegative_mul hx (isNegative_ofNat (10 ^ places))
  exact isNegative_div_ofNat (isNegative_roundEven hscaled) (Nat.pow_pos (by decide)) h

/-- A finite number without a sign is at least zero. -/
theorem zero_le_of_isNegative (hfinite : x.isFinite = true) (hx : x.isNegative = false) : zero.le x = true :=
  le_iff.mpr ⟨0, x.units, rfl, place?_of_isFinite hfinite, units_nonneg hx⟩

/-! ## Integers -/

/-- **A whole number is rounded to a whole number**: the spacing of the format divides one, or is a multiple of it. -/
theorem unitsPerOne_dvd_roundUnits (k : ℕ) : unitsPerOne ∣ roundUnits (k * unitsPerOne) 1 := by
  obtain ⟨e, -, hunits⟩ := exists_unitsPerOne_eq
  unfold roundUnits
  generalize spacing (k * unitsPerOne) 1 = s
  rw [Nat.one_mul]
  rcases Nat.le_total s e with hse | hes
  · -- there is nothing to round
    have hdvd : Nat.pow 2 s ∣ k * unitsPerOne := by
      rw [hunits]
      exact dvd_mul_of_dvd_right (Nat.pow_dvd_pow 2 hse) k
    have hpos : 0 < Nat.pow 2 s := Nat.two_pow_pos s
    rw [roundQuotient_of_dvd hpos hdvd, Nat.div_mul_cancel hdvd]
    exact Nat.dvd_mul_left unitsPerOne k
  · have hdvd : unitsPerOne ∣ Nat.pow 2 s := by
      rw [hunits]
      exact Nat.pow_dvd_pow 2 hes
    exact Nat.dvd_mul_left_of_dvd hdvd _

/-- **Integers of moderate size are rounded to integers.** -/
theorem ofInt_whole {n : ℤ} (hn : n.natAbs ≤ 2 ^ 64) :
    (ofInt n).isFinite = true ∧ ∃ z : ℤ, (ofInt n).units = z * unitsPerOne := by
  have hlimit : Representable (2 ^ 64 * unitsPerOne) := by
    have hscaled := representable_scaled (k := 1) (s := 64) (by norm_num) (by norm_num)
    rwa [Nat.one_mul] at hscaled
  have hle : n.natAbs * unitsPerOne ≤ 2 ^ 64 * unitsPerOne * 1 := by
    rw [Nat.mul_one]
    exact Nat.mul_le_mul_right _ hn
  have hround := (roundUnits_le Nat.one_pos hlimit hle).trans_lt hlimit.1
  obtain ⟨k, hk⟩ := unitsPerOne_dvd_roundUnits n.natAbs
  unfold ofInt ofRatio
  rw [dif_pos Nat.one_pos, dif_pos hround]
  refine ⟨rfl, ?_⟩
  cases decide (n < 0) with
  | false => exact ⟨k, by simp only [units, hk]; push_cast; ring⟩
  | true => exact ⟨-k, by simp only [units, hk]; push_cast; ring⟩

/-- **An integer that is the value of a number** is not rounded. -/
theorem units_ofInt_of_units {n : ℤ} {x : Binary64} (hx : x.isFinite = true) (hunits : x.units = n * unitsPerOne) :
    (ofInt n).units = n * unitsPerOne := by
  cases x with
  | nan | infinite => cases hx
  | finite s m =>
    have hsize : n.natAbs * unitsPerOne = m.units := by
      rw [← natAbs_units s m, hunits, Int.natAbs_mul, Int.natAbs_natCast]
    rw [ofInt, ofRatio_one _ (n := n.natAbs * unitsPerOne) (hsize ▸ m.representable)]
    by_cases hn : n < 0
    · simp only [decide_eq_true hn, units]
      rw [Nat.cast_mul, ← Int.neg_mul, Int.ofNat_natAbs_of_nonpos hn.le, Int.neg_neg]
    · simp only [decide_eq_false hn, units]
      rw [Nat.cast_mul, Int.natAbs_of_nonneg (Int.not_lt.mp hn)]

end Milp.Binary64
