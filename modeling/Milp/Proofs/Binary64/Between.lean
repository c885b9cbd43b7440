import Milp.Proofs.Binary64.Exact
import Milp.Proofs.Binary64.Magnitude

/-!
# Results between numbers

Rounding crosses no number of the format from above either, so what lies between two of them before it is rounded lies
between them afterwards. That keeps drawn numbers in their range, and a number between two whole ones stays between
them when it is rounded to decimal places.

* `le_roundUnits` — rounding to the format from below.
* `ofRatio_between`, `add_between` and `between_add_mul` — results between numbers of the format.
* `Between` — a finite number between two whole ones: `between_ofRatio` and `Between.roundPlaces`.
-/

namespace Milp.Binary64

/-! ## Rounding and order, from below -/

theorem le_roundQuotient {num den k : ℕ} (hden : 0 < den) (h : k * den ≤ num) : k ≤ roundQuotient num den := by
  have hq : k ≤ num / den := (Nat.le_div_iff_mul_le hden).mpr h
  unfold roundQuotient
  dsimp only
  repeat' split
  all_goals omega

/-- **Rounding does not cross a size of the format**, from above. -/
theorem le_roundUnits {num den r : ℕ} (hden : 0 < den) (hr : Representable r) (h : r * den ≤ num) :
    r ≤ roundUnits num den := by
  have hquotient : r ≤ num / den := (Nat.le_div_iff_mul_le hden).mpr h
  -- what the spacing divides is not crossed
  have hmultiple : ∀ t, Nat.pow 2 (spacing num den) ∣ t → t * den ≤ num → t ≤ roundUnits num den := by
    rintro t ⟨k, rfl⟩ hle
    unfold roundUnits
    rw [Nat.mul_comm _ k]
    refine Nat.mul_le_mul_right _ (le_roundQuotient (Nat.mul_pos hden (Nat.two_pow_pos _)) ?_)
    calc k * (den * Nat.pow 2 (spacing num den)) = Nat.pow 2 (spacing num den) * k * den := by ring
      _ ≤ num := hle
  rcases Nat.eq_zero_or_pos r with rfl | hpos
  · exact Nat.zero_le _
  have hlog : r.log2 ≤ (num / den).log2 := by
    rw [Nat.log2_eq_log_two, Nat.log2_eq_log_two]
    exact Nat.log_mono_right hquotient
  rcases Nat.lt_or_eq_of_le hlog with hlt | heq
  · -- the power of two below the quotient is a number of the format, and larger
    have hpower : r < 2 ^ (num / den).log2 := Nat.lt_log2_self.trans_le (Nat.pow_le_pow_right Nat.two_pos hlt)
    have hbelow : 2 ^ (num / den).log2 ≤ num / den := Nat.log2_self_le (hpos.trans_le hquotient).ne'
    exact hpower.le.trans (hmultiple _ (Nat.pow_dvd_pow 2 (Nat.sub_le _ _)) ((Nat.le_div_iff_mul_le hden).mp hbelow))
  · refine hmultiple r ?_ h
    unfold spacing
    rw [← heq]
    exact hr.2

/-! ## Whole bounds for sizes with a sign -/

/-- A size with a sign. -/
def signed (s : Bool) (n : ℕ) : ℤ := if s then -(n : ℤ) else n

theorem units_finite (s : Bool) (m : Size) : (finite s m).units = signed s m.units := by
  cases s <;> rfl

theorem signed_natAbs (t : ℤ) : signed (decide (t < 0)) t.natAbs = t := by
  by_cases ht : t < 0
  · rw [decide_eq_true ht]
    show -(t.natAbs : ℤ) = t
    omega
  · rw [decide_eq_false ht]
    show (t.natAbs : ℤ) = t
    omega

theorem signed_mul (s : Bool) (n k : ℕ) : signed s (n * k) = signed s n * k := by
  cases s with
  | false => exact Int.natCast_mul n k
  | true =>
    show -((n * k : ℕ) : ℤ) = -(n : ℤ) * k
    rw [Int.natCast_mul, Int.neg_mul]

section Signed

variable {P : ℕ → Prop} {n r D E : ℕ} (hD : 0 < D) (hle : ∀ k, P k → n ≤ k * D → r ≤ k * E)
  (hge : ∀ k, P k → k * D ≤ n → k * E ≤ r)

include hD hle in
theorem cast_le_of_bound {b : ℤ} (hb : P b.natAbs) (h : (n : ℤ) ≤ b * D) : (r : ℤ) ≤ b * E := by
  have hpos : 0 ≤ b := by
    by_contra hneg
    have : b * (D : ℤ) < 0 := Int.mul_neg_of_neg_of_pos (not_le.mp hneg) (Int.natCast_pos.mpr hD)
    omega
  obtain ⟨k, rfl⟩ := Int.eq_ofNat_of_zero_le hpos
  exact_mod_cast hle k hb (by exact_mod_cast h)

include hge in
theorem le_cast_of_bound {a : ℤ} (ha : P a.natAbs) (h : a * D ≤ (n : ℤ)) : a * E ≤ (r : ℤ) := by
  rcases Int.le_total a 0 with hneg | hpos
  · exact (Int.mul_nonpos_of_nonpos_of_nonneg hneg (Int.natCast_nonneg E)).trans (Int.natCast_nonneg r)
  · obtain ⟨k, rfl⟩ := Int.eq_ofNat_of_zero_le hpos
    exact_mod_cast hge k ha (by exact_mod_cast h)

include hD hle hge in
/-- **What keeps bounds of sizes keeps them with a sign.** -/
theorem signed_between {a b : ℤ} (s : Bool) (ha : P a.natAbs) (hb : P b.natAbs)
    (hlower : a * D ≤ signed s n) (hupper : signed s n ≤ b * D) : a * E ≤ signed s r ∧ signed s r ≤ b * E := by
  cases s with
  | false => exact ⟨le_cast_of_bound hge ha hlower, cast_le_of_bound hD hle hb hupper⟩
  | true =>
    -- the bounds change places
    have hlower : a * D ≤ -(n : ℤ) := hlower
    have hupper : -(n : ℤ) ≤ b * D := hupper
    have hr := cast_le_of_bound hD hle (b := -a) (by rwa [Int.natAbs_neg]) (by rw [Int.neg_mul]; omega)
    have hr' := le_cast_of_bound hge (a := -b) (by rwa [Int.natAbs_neg]) (by rw [Int.neg_mul]; omega)
    rw [Int.neg_mul] at hr hr'
    show a * E ≤ -(r : ℤ) ∧ -(r : ℤ) ≤ b * E
    omega

/-- A size with a sign between two bounds is at most one of their sizes. -/
theorem exists_le_of_signed_between {a b : ℤ} (s : Bool) (ha : P a.natAbs) (hb : P b.natAbs)
    (hlower : a * D ≤ signed s n) (hupper : signed s n ≤ b * D) : ∃ k, P k ∧ n ≤ k * D := by
  have hbound {c : ℤ} (hc : (n : ℤ) ≤ c * D) : n ≤ c.natAbs * D := by
    have habs : c * D ≤ (c.natAbs : ℤ) * D := Int.mul_le_mul_of_nonneg_right Int.le_natAbs (Int.natCast_nonneg D)
    exact_mod_cast hc.trans habs
  cases s with
  | false => exact ⟨b.natAbs, hb, hbound hupper⟩
  | true =>
    have hlower : a * D ≤ -(n : ℤ) := hlower
    refine ⟨a.natAbs, ha, ?_⟩
    rw [← Int.natAbs_neg]
    exact hbound (by rw [Int.neg_mul]; omega)

end Signed

variable {x y lo hi : Binary64} {a b : ℤ}

/-- **A ratio between numbers of the format is rounded to a number between them.** -/
theorem ofRatio_between {s : Bool} {num den : ℕ} (hden : 0 < den) (ha : Representable a.natAbs)
    (hb : Representable b.natAbs) (hlower : a * den ≤ signed s num) (hupper : signed s num ≤ b * den) :
    (ofRatio s num den).isFinite = true ∧ a ≤ (ofRatio s num den).units ∧ (ofRatio s num den).units ≤ b := by
  have hle : ∀ k, Representable k → num ≤ k * den → roundUnits num den ≤ k * 1 := fun k hk h =>
    (roundUnits_le hden hk h).trans_eq (Nat.mul_one k).symm
  have hge : ∀ k, Representable k → k * den ≤ num → k * 1 ≤ roundUnits num den := fun k hk h =>
    (Nat.mul_one k).trans_le (le_roundUnits hden hk h)
  obtain ⟨halower, hbupper⟩ := signed_between hden hle hge s ha hb hlower hupper
  rw [Int.natCast_one, Int.mul_one] at halower hbupper
  obtain ⟨k, hk, hnum⟩ := exists_le_of_signed_between s ha hb hlower hupper
  have hlimit : roundUnits num den < sizeLimit := (roundUnits_le hden hk hnum).trans_lt hk.1
  unfold ofRatio
  rw [dif_pos hden, dif_pos hlimit, units_finite]
  exact ⟨rfl, halower, hbupper⟩

/-- Numbers of the format are what their units say. -/
theorem representable_units (x : Binary64) : Representable x.units.natAbs := by
  cases x with
  | nan | infinite => exact representable_zero
  | finite s m => exact natAbs_units s m ▸ m.representable

/-- **Units between those of two numbers** are rounded to a number between them. -/
theorem ofUnits_between {t : ℤ} (hlower : lo.units ≤ t) (hupper : t ≤ hi.units) :
    (ofUnits t).isFinite = true ∧ lo.units ≤ (ofUnits t).units ∧ (ofUnits t).units ≤ hi.units := by
  refine ofRatio_between Nat.one_pos lo.representable_units hi.representable_units ?_ ?_
  · rwa [signed_natAbs, Int.natCast_one, Int.mul_one]
  · rwa [signed_natAbs, Int.natCast_one, Int.mul_one]

/-! ## A part of a difference -/

theorem le_iff_units (hx : x.isFinite = true) (hy : y.isFinite = true) : x.le y = true ↔ x.units ≤ y.units := by
  rw [le_iff_toRat hx hy, toRat_le_iff]

/-- Numbers above zero have no sign. -/
theorem isNegative_of_units_pos (hx : 0 < x.units) : x.isNegative = false := by
  cases x with
  | nan => rfl
  | infinite s => cases hx
  | finite s m =>
    cases s with
    | false => rfl
    | true =>
      have hm : (0 : ℤ) < -m.units := hx
      omega

/-- **A sum between two numbers** is rounded to a number between them. -/
theorem add_between (hx : x.isFinite = true) (hy : y.isFinite = true) (hlower : lo.units ≤ x.units + y.units)
    (hupper : x.units + y.units ≤ hi.units) :
    (x.add y).isFinite = true ∧ lo.units ≤ (x.add y).units ∧ (x.add y).units ≤ hi.units := by
  cases x with
  | nan | infinite => cases hx
  | finite s m =>
    cases y with
    | nan | infinite => cases hy
    | finite t n =>
      rw [add]
      split
      · rename_i hzero
        have hunits : (finite (s && t) Size.zero).units = 0 := by cases s && t <;> rfl
        rw [hunits]
        exact ⟨rfl, hzero ▸ hlower, hzero ▸ hupper⟩
      · exact ofUnits_between hlower hupper

/-- **Two numbers in order with a difference that the format holds.** -/
structure HaveDifference (lo hi : Binary64) : Prop where
  lo_finite : lo.isFinite = true
  hi_finite : hi.isFinite = true
  inOrder : lo.units ≤ hi.units
  isFinite : (hi.sub lo).isFinite = true
  exact : (hi.sub lo).units = hi.units - lo.units

instance (lo hi : Binary64) : Decidable (HaveDifference lo hi) :=
  decidable_of_iff (lo.isFinite = true ∧ hi.isFinite = true ∧ lo.units ≤ hi.units ∧ (hi.sub lo).isFinite = true ∧
      (hi.sub lo).units = hi.units - lo.units)
    ⟨fun h => ⟨h.1, h.2.1, h.2.2.1, h.2.2.2.1, h.2.2.2.2⟩,
      fun h => ⟨h.lo_finite, h.hi_finite, h.inOrder, h.isFinite, h.exact⟩⟩

/-- **A number plus some part of the difference to a larger one** lies between the two. -/
theorem between_add_mul (h : HaveDifference lo hi) (hx : x.AtMost 1) (hsign : x.isNegative = false) :
    lo.le (lo.add ((hi.sub lo).mul x)) = true ∧ (lo.add ((hi.sub lo).mul x)).le hi = true := by
  obtain ⟨hlo, hhi, horder, hfinite, hexact⟩ := h
  generalize hi.sub lo = d at hfinite hexact ⊢
  have hd : 0 ≤ d.units := by omega
  have hpart : (d.mul x).isFinite = true ∧ 0 ≤ (d.mul x).units ∧ (d.mul x).units ≤ d.units := by
    obtain ⟨t, n, rfl, hn⟩ := hx.exists_eq
    obtain rfl : t = false := hsign
    cases d with
    | nan | infinite => cases hfinite
    | finite s m =>
      rw [units_finite] at hd
      rw [mul, Bool.bne_false]
      refine ofRatio_between unitsPerOne_pos representable_zero (representable_units _) ?_ ?_
      · rw [signed_mul, Int.zero_mul]
        exact Int.mul_nonneg hd (Int.natCast_nonneg _)
      · rw [signed_mul, units_finite]
        rw [Nat.one_mul] at hn
        exact Int.mul_le_mul_of_nonneg_left (Int.ofNat_le.mpr hn) hd
  obtain ⟨hpfinite, hplower, hpupper⟩ := hpart
  obtain ⟨hsum, hlower, hupper⟩ : (lo.add (d.mul x)).isFinite = true ∧ lo.units ≤ (lo.add (d.mul x)).units ∧
      (lo.add (d.mul x)).units ≤ hi.units := add_between hlo hpfinite (by omega) (by omega)
  exact ⟨(le_iff_units hlo hsum).mpr hlower, (le_iff_units hsum hhi).mpr hupper⟩

/-! ## Numbers between whole ones -/

/-- **`x.Between a b`** — a finite number between two whole ones. -/
structure Between (a b : ℤ) (x : Binary64) : Prop where
  isFinite : x.isFinite = true
  lower : a * unitsPerOne ≤ x.units
  upper : x.units ≤ b * unitsPerOne

theorem between_finite {s : Bool} {m : Size} : (finite s m).Between a b ↔
    a * unitsPerOne ≤ signed s m.units ∧ signed s m.units ≤ b * unitsPerOne := by
  rw [← units_finite]
  exact ⟨fun h => ⟨h.lower, h.upper⟩, fun h => ⟨rfl, h.1, h.2⟩⟩

theorem Between.exists_eq (hx : x.Between a b) : ∃ s m, x = finite s m ∧
    a * unitsPerOne ≤ signed s m.units ∧ signed s m.units ≤ b * unitsPerOne := by
  have hfinite := hx.isFinite
  cases x with
  | nan | infinite => cases hfinite
  | finite s m => exact ⟨s, m, rfl, between_finite.mp hx⟩

/-- A whole number of moderate size is a number of the format. -/
theorem representable_whole_units (ha : a.natAbs ≤ 2 ^ 53) : Representable (a * unitsPerOne).natAbs := by
  rw [Int.natAbs_mul, Int.natAbs_natCast]
  exact representable_small ha

/-- **A ratio between whole numbers is rounded to a number between them.** -/
theorem between_ofRatio {s : Bool} {num den : ℕ} (hden : 0 < den) (ha : a.natAbs ≤ 2 ^ 53) (hb : b.natAbs ≤ 2 ^ 53)
    (hlower : a * unitsPerOne * den ≤ signed s num) (hupper : signed s num ≤ b * unitsPerOne * den) :
    (ofRatio s num den).Between a b := by
  obtain ⟨hfinite, hlow, hhigh⟩ :=
    ofRatio_between hden (representable_whole_units ha) (representable_whole_units hb) hlower hupper
  exact ⟨hfinite, hlow, hhigh⟩

theorem between_ofInt (ha : a.natAbs ≤ 2 ^ 53) : (ofInt a).Between a a := by
  have hunits : signed (decide (a < 0)) (a.natAbs * unitsPerOne) = a * unitsPerOne * (1 : ℕ) := by
    rw [signed_mul, signed_natAbs, Int.natCast_one, Int.mul_one]
  exact between_ofRatio Nat.one_pos ha ha hunits.ge hunits.le

/-- What lies between numbers that lie between whole ones. -/
theorem between_of_le {c d : ℤ} (hlo : lo.Between a c) (hhi : hi.Between d b)
    (hlower : lo.le x = true) (hupper : x.le hi = true) : x.Between a b := by
  obtain ⟨l, u, hl, hu, hlu⟩ := le_iff.mp hlower
  obtain ⟨u', h, hu', hh, huh⟩ := le_iff.mp hupper
  cases hu.symm.trans hu'
  cases hl.symm.trans (place?_of_isFinite hlo.isFinite)
  cases hh.symm.trans (place?_of_isFinite hhi.isFinite)
  have hl := units_lt_sizeLimit hlo.isFinite
  have hh := units_lt_sizeLimit hhi.isFinite
  have hfinite : x.isFinite = true := isFinite_of_place? hu (by omega) (by omega)
  cases hu.symm.trans (place?_of_isFinite hfinite)
  exact ⟨hfinite, hlo.lower.trans hlu, huh.trans hhi.upper⟩

theorem Between.units_pos (hx : x.Between a b) (ha : 0 < a) : 0 < x.units :=
  (Int.mul_pos ha (Int.natCast_pos.mpr unitsPerOne_pos)).trans_le hx.lower

theorem Between.isNegative (hx : x.Between a b) (ha : 0 < a) : x.isNegative = false :=
  isNegative_of_units_pos (hx.units_pos ha)

theorem Between.zero_le (hx : x.Between a b) (ha : 0 < a) : zero.le x = true :=
  zero_le_of_isNegative hx.isFinite (hx.isNegative ha)

theorem Between.zero_lt (hx : x.Between a b) (ha : 0 < a) : zero.lt x = true :=
  lt_iff.mpr ⟨0, x.units, rfl, place?_of_isFinite hx.isFinite, hx.units_pos ha⟩

theorem Between.atMost {n : ℕ} (hx : x.Between a b) (ha : a.natAbs ≤ n) (hb : b.natAbs ≤ n) : x.AtMost n := by
  obtain ⟨s, m, rfl, hlower, hupper⟩ := hx.exists_eq
  obtain ⟨k, hk, hm⟩ := exists_le_of_signed_between (P := (· ≤ n)) s ha hb hlower hupper
  exact atMost_finite.mpr (hm.trans (Nat.mul_le_mul_right _ hk))

/-! ## Rounding to decimal places -/

theorem Between.mul_ofNat (hx : x.Between a b) {k : ℕ} (hk : k ≤ 2 ^ 53) (ha : (a * k).natAbs ≤ 2 ^ 53)
    (hb : (b * k).natAbs ≤ 2 ^ 53) : (x.mul (ofNat k)).Between (a * k) (b * k) := by
  obtain ⟨s, m, rfl, hlower, hupper⟩ := hx.exists_eq
  rw [ofNat_eq hk]
  have hmul : (finite s m).mul (finite false ⟨k * unitsPerOne, representable_small hk⟩) =
      ofRatio s (m.units * (k * unitsPerOne)) unitsPerOne := by
    rw [mul, Bool.bne_false]
  rw [hmul]
  refine between_ofRatio unitsPerOne_pos ha hb ?_ ?_
  · rw [signed_mul]
    calc a * k * unitsPerOne * unitsPerOne = a * unitsPerOne * (k * unitsPerOne : ℕ) := by push_cast; ring
      _ ≤ _ := Int.mul_le_mul_of_nonneg_right hlower (Int.natCast_nonneg _)
  · rw [signed_mul]
    calc signed s m.units * (k * unitsPerOne : ℕ) ≤ b * unitsPerOne * (k * unitsPerOne : ℕ) :=
          Int.mul_le_mul_of_nonneg_right hupper (Int.natCast_nonneg _)
      _ = _ := by push_cast; ring

theorem Between.roundEven (hx : x.Between a b) (ha : a.natAbs ≤ 2 ^ 53) (hb : b.natAbs ≤ 2 ^ 53) :
    x.roundEven.Between a b := by
  obtain ⟨s, m, rfl, hlower, hupper⟩ := hx.exists_eq
  have hround : (finite s m).roundEven = ofRatio s (roundQuotient m.units unitsPerOne * unitsPerOne) 1 := by
    rw [Binary64.roundEven, ofWhole, Int.natAbs_natCast]
  obtain ⟨hwlower, hwupper⟩ := signed_between (P := fun _ => True) (E := 1) unitsPerOne_pos
    (fun k _ h => (roundQuotient_le_of_le unitsPerOne_pos h).trans_eq (Nat.mul_one k).symm)
    (fun k _ h => (Nat.mul_one k).trans_le (le_roundQuotient unitsPerOne_pos h)) s trivial trivial hlower hupper
  rw [Int.natCast_one, Int.mul_one] at hwlower hwupper
  rw [hround]
  refine between_ofRatio Nat.one_pos ha hb ?_ ?_
  · rw [signed_mul, Int.natCast_one, Int.mul_one]
    exact Int.mul_le_mul_of_nonneg_right hwlower (Int.natCast_nonneg _)
  · rw [signed_mul, Int.natCast_one, Int.mul_one]
    exact Int.mul_le_mul_of_nonneg_right hwupper (Int.natCast_nonneg _)

theorem Between.div_ofNat {k : ℕ} (hx : x.Between (a * k) (b * k)) (hpos : 0 < k) (hk : k ≤ 2 ^ 53)
    (ha : a.natAbs ≤ 2 ^ 53) (hb : b.natAbs ≤ 2 ^ 53) : (x.div (ofNat k)).Between a b := by
  obtain ⟨s, m, rfl, hlower, hupper⟩ := hx.exists_eq
  have hunits : 0 < k * unitsPerOne := Nat.mul_pos hpos unitsPerOne_pos
  have hdiv : (finite s m).div (finite false ⟨k * unitsPerOne, representable_small hk⟩) =
      ofRatio s (m.units * unitsPerOne) (k * unitsPerOne) := by
    rw [div, if_neg hunits.ne', Bool.bne_false]
  rw [ofNat_eq hk, hdiv]
  refine between_ofRatio hunits ha hb ?_ ?_
  · rw [signed_mul]
    calc a * unitsPerOne * (k * unitsPerOne : ℕ) = a * k * unitsPerOne * unitsPerOne := by push_cast; ring
      _ ≤ _ := Int.mul_le_mul_of_nonneg_right hlower (Int.natCast_nonneg _)
  · rw [signed_mul]
    calc signed s m.units * (unitsPerOne : ℕ) ≤ b * k * unitsPerOne * unitsPerOne :=
          Int.mul_le_mul_of_nonneg_right hupper (Int.natCast_nonneg _)
      _ = _ := by push_cast; ring

/-- **A number that is rounded to decimal places** stays between whole numbers. -/
theorem Between.roundPlaces (hx : x.Between a b) {places : ℕ} (hplaces : 10 ^ places ≤ 2 ^ 53)
    (ha : (a * (10 ^ places : ℕ)).natAbs ≤ 2 ^ 53) (hb : (b * (10 ^ places : ℕ)).natAbs ≤ 2 ^ 53) :
    (x.roundPlaces places).Between a b := by
  have hpos : 0 < 10 ^ places := Nat.pow_pos (by decide)
  have hsmall {c : ℤ} (hc : (c * (10 ^ places : ℕ)).natAbs ≤ 2 ^ 53) : c.natAbs ≤ 2 ^ 53 := by
    rw [Int.natAbs_mul, Int.natAbs_natCast] at hc
    exact (Nat.le_mul_of_pos_right _ hpos).trans hc
  exact ((hx.mul_ofNat hplaces ha hb).roundEven ha hb).div_ofNat hpos hplaces (hsmall ha) (hsmall hb)

end Milp.Binary64
