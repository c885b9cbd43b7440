import Milp.Binary64.Arith

/-!
# The order of the format

Comparisons look at places on the line of integers. Here they are turned back into statements about
numbers: which numbers lie at the ends of the line, and what follows from one comparison for another.

* `le_iff` and `lt_iff` — comparisons through places.
* `same_infinity_iff` and `infinity_le_abs_iff` — only the infinities lie at the ends.
* `eq_or_zero_of_same` — numbers that are equal are one number, the two zeros apart.
* `place?_maximum`, `place?_minimum` and `place?_clip` — choosing between numbers is choosing between
  places.
-/

namespace Milp.Binary64

/-! ## Places -/

theorem le_iff {x y : Binary64} :
    x.le y = true ↔ ∃ a b, x.place? = some a ∧ y.place? = some b ∧ a ≤ b := by
  unfold le
  cases hx : x.place? <;> cases hy : y.place? <;> simp

theorem lt_iff {x y : Binary64} :
    x.lt y = true ↔ ∃ a b, x.place? = some a ∧ y.place? = some b ∧ a < b := by
  unfold lt
  cases hx : x.place? <;> cases hy : y.place? <;> simp

theorem same_iff {x y : Binary64} :
    x.same y = true ↔ ∃ a, x.place? = some a ∧ y.place? = some a := by
  unfold same
  cases hx : x.place? <;> cases hy : y.place? <;> simp [eq_comm]

theorem isNaN_iff {x : Binary64} : x.isNaN = true ↔ x.place? = none := by
  rw [place?_eq_none_iff]
  cases x <;> simp [isNaN]

theorem exists_place?_of_not_isNaN {x : Binary64} (h : x.isNaN = false) : ∃ a, x.place? = some a := by
  refine Option.ne_none_iff_exists'.mp fun hn => ?_
  rw [isNaN_iff.mpr hn] at h
  cases h

theorem not_isNaN_of_place? {x : Binary64} {a : Int} (h : x.place? = some a) : x.isNaN = false := by
  refine Bool.eq_false_iff.mpr fun hn => ?_
  rw [isNaN_iff.mp hn] at h
  cases h

theorem not_isNaN_of_le {x y : Binary64} (h : x.le y = true) :
    x.isNaN = false ∧ y.isNaN = false := by
  obtain ⟨a, b, hx, hy, -⟩ := le_iff.mp h
  exact ⟨not_isNaN_of_place? hx, not_isNaN_of_place? hy⟩

/-- Of two numbers that are not NaN, one is at most the other or above it. -/
theorem not_lt_iff {x y : Binary64} (hx : x.isNaN = false) (hy : y.isNaN = false) :
    ¬ x.lt y = true ↔ y.le x = true := by
  obtain ⟨a, ha⟩ := exists_place?_of_not_isNaN hx
  obtain ⟨b, hb⟩ := exists_place?_of_not_isNaN hy
  simp [lt, le, ha, hb]

theorem not_le_of_lt {x y : Binary64} (h : x.lt y = true) : ¬ y.le x = true := by
  obtain ⟨a, b, hx, hy, hab⟩ := lt_iff.mp h
  simpa [le, hx, hy] using hab

/-- A finite number lies strictly between the ends of the line. -/
theorem units_lt_sizeLimit {x : Binary64} (h : x.isFinite = true) :
    -(sizeLimit : Int) < x.units ∧ x.units < sizeLimit := by
  cases x with
  | nan => cases h
  | infinite s => cases h
  | finite s m =>
    have hm : m.units < sizeLimit := m.representable.1
    cases s <;> simp only [units] <;> omega

/-- **Only plus infinity lies at the upper end.** -/
theorem place?_eq_upper_end_iff {x : Binary64} :
    x.place? = some (sizeLimit : Int) ↔ x = infinity := by
  have hpos := sizeLimit_pos
  constructor
  · intro h
    cases x with
    | nan => cases h
    | infinite s =>
      cases s with
      | false => rfl
      | true =>
        have h : -(sizeLimit : Int) = sizeLimit := Option.some.inj h
        omega
    | finite s m =>
      have hbound := units_lt_sizeLimit (x := finite s m) rfl
      rw [place?_of_isFinite rfl, Option.some.injEq] at h
      omega
  · rintro rfl
    rfl

/-- **Only minus infinity lies at the lower end.** -/
theorem place?_eq_lower_end_iff {x : Binary64} :
    x.place? = some (-(sizeLimit : Int)) ↔ x = negInfinity := by
  have hpos := sizeLimit_pos
  constructor
  · intro h
    cases x with
    | nan => cases h
    | infinite s =>
      cases s with
      | false =>
        have h : (sizeLimit : Int) = -sizeLimit := Option.some.inj h
        omega
      | true => rfl
    | finite s m =>
      have hbound := units_lt_sizeLimit (x := finite s m) rfl
      rw [place?_of_isFinite rfl, Option.some.injEq] at h
      omega
  · rintro rfl
    rfl

/-- Every place lies between the ends. -/
theorem place?_bounds {x : Binary64} {a : Int} (h : x.place? = some a) :
    -(sizeLimit : Int) ≤ a ∧ a ≤ sizeLimit := by
  have hpos := sizeLimit_pos
  cases x with
  | nan => cases h
  | infinite s =>
    cases s <;> simp only [place?, Option.some.injEq] at h <;> omega
  | finite s m =>
    have hbound := units_lt_sizeLimit (x := finite s m) rfl
    rw [place?_of_isFinite rfl, Option.some.injEq] at h
    omega

/-- What lies strictly between the ends is finite. -/
theorem isFinite_of_place? {x : Binary64} {a : Int} (h : x.place? = some a)
    (hlower : -(sizeLimit : Int) < a) (hupper : a < sizeLimit) : x.isFinite = true := by
  cases x with
  | nan => cases h
  | infinite s =>
    cases s <;> simp only [place?, Option.some.injEq] at h <;> omega
  | finite s m => rfl

/-- Numbers at one place are one number, unless they are zeros. -/
theorem eq_or_zero_of_place? {x y : Binary64} {a : Int} (hx : x.place? = some a)
    (hy : y.place? = some a) : x = y ∨ a = 0 := by
  by_cases hupper : a = sizeLimit
  · subst hupper
    exact .inl ((place?_eq_upper_end_iff.mp hx).trans (place?_eq_upper_end_iff.mp hy).symm)
  by_cases hlower : a = -sizeLimit
  · subst hlower
    exact .inl ((place?_eq_lower_end_iff.mp hx).trans (place?_eq_lower_end_iff.mp hy).symm)
  have hbounds := place?_bounds hx
  have hxfinite := isFinite_of_place? hx (by omega) (by omega)
  have hyfinite := isFinite_of_place? hy (by omega) (by omega)
  obtain ⟨s, ⟨m, hm⟩, rfl⟩ : ∃ s m, x = finite s m := by
    cases x with
    | nan | infinite => cases hxfinite
    | finite s m => exact ⟨s, m, rfl⟩
  obtain ⟨t, ⟨n, hn⟩, rfl⟩ : ∃ t n, y = finite t n := by
    cases y with
    | nan | infinite => cases hyfinite
    | finite t n => exact ⟨t, n, rfl⟩
  by_cases ha : a = 0
  · exact .inr ha
  · left
    cases s <;> cases t <;> simp only [place?, Option.some.injEq] at hx hy <;> simp <;> omega

/-- Nothing lies below minus infinity. -/
theorem not_lt_negInfinity (x : Binary64) : ¬ x.lt negInfinity = true := by
  intro h
  obtain ⟨a, b, ha, hb, hlt⟩ := lt_iff.mp h
  have hbounds := place?_bounds ha
  rw [place?_eq_lower_end_iff.mpr rfl, Option.some.injEq] at hb
  omega

/-- Nothing lies above plus infinity. -/
theorem not_infinity_lt (x : Binary64) : ¬ infinity.lt x = true := by
  intro h
  obtain ⟨a, b, ha, hb, hlt⟩ := lt_iff.mp h
  have hbounds := place?_bounds hb
  rw [place?_eq_upper_end_iff.mpr rfl, Option.some.injEq] at ha
  omega

theorem same_infinity_iff {x : Binary64} : x.same infinity = true ↔ x = infinity := by
  rw [same_iff, ← place?_eq_upper_end_iff]
  simp [infinity, place?]

theorem same_negInfinity_iff {x : Binary64} : x.same negInfinity = true ↔ x = negInfinity := by
  rw [same_iff, ← place?_eq_lower_end_iff]
  simp [negInfinity, place?]

theorem same_zero_iff {x : Binary64} : x.same zero = true ↔ x = zero ∨ x = zero.neg := by
  constructor
  · intro h
    obtain ⟨a, hx, hzero⟩ := same_iff.mp h
    cases hzero
    cases x with
    | nan => cases hx
    | infinite s =>
      have hpos := sizeLimit_pos
      cases s <;> simp [place?, Size.zero] at hx <;> omega
    | finite s m =>
      rw [same_zero_finite, decide_eq_true_eq] at h
      obtain ⟨n, hn⟩ := m
      cases h
      cases s
      · exact .inl rfl
      · exact .inr rfl
  · rintro (rfl | rfl) <;> rfl

/-- **Numbers that are equal are one number**, or zeros of whichever sign. -/
theorem eq_or_zero_of_same {x y : Binary64} (h : x.same y = true) :
    x = y ∨ x.same zero = true ∧ y.same zero = true := by
  obtain ⟨a, hx, hy⟩ := same_iff.mp h
  rcases eq_or_zero_of_place? hx hy with heq | rfl
  · exact .inl heq
  · exact .inr ⟨same_iff.mpr ⟨0, hx, rfl⟩, same_iff.mpr ⟨0, hy, rfl⟩⟩

/-- Only NaN is not equal to itself. -/
theorem same_self_of_not_isNaN {x : Binary64} (h : x.isNaN = false) : x.same x = true := by
  obtain ⟨a, ha⟩ := exists_place?_of_not_isNaN h
  exact same_iff.mpr ⟨a, ha, ha⟩

/-- A number is as large as infinity in size only if it is infinite. -/
theorem infinity_le_abs_iff {x : Binary64} : infinity.le x.abs = true ↔ x.isInfinite = true := by
  have hpos := sizeLimit_pos
  cases x with
  | nan => simp [le, abs, place?, isInfinite]
  | infinite s => simp [le, abs, place?, infinity, isInfinite]
  | finite s m =>
    have hm : m.units < sizeLimit := m.representable.1
    simp only [le, abs, place?, infinity, isInfinite, decide_eq_true_eq, Bool.false_eq_true,
      iff_false]
    omega

/-! ## Choosing between two numbers -/

theorem place?_maximum {x y : Binary64} {a b : Int} (hx : x.place? = some a)
    (hy : y.place? = some b) : (x.maximum y).place? = some (max a b) := by
  have hle : y.le x = decide (b ≤ a) := by simp [le, hx, hy]
  simp only [maximum, not_isNaN_of_place? hx, not_isNaN_of_place? hy, hle, Bool.false_eq_true,
    if_false, decide_eq_true_eq]
  split
  · rw [hx]; congr 1; omega
  · rw [hy]; congr 1; omega

theorem place?_minimum {x y : Binary64} {a b : Int} (hx : x.place? = some a)
    (hy : y.place? = some b) : (x.minimum y).place? = some (min a b) := by
  have hle : x.le y = decide (a ≤ b) := by simp [le, hx, hy]
  simp only [minimum, not_isNaN_of_place? hx, not_isNaN_of_place? hy, hle, Bool.false_eq_true,
    if_false, decide_eq_true_eq]
  split
  · rw [hx]; congr 1; omega
  · rw [hy]; congr 1; omega

/-- The larger of two numbers is the first, if the second is not above it. -/
theorem maximum_of_le {x y : Binary64} (h : y.le x = true) : x.maximum y = x := by
  obtain ⟨b, a, hy, hx, -⟩ := le_iff.mp h
  rw [maximum, not_isNaN_of_place? hx, not_isNaN_of_place? hy, h]
  rfl

/-- The smaller of two numbers is the first, if the second is not below it. -/
theorem minimum_of_le {x y : Binary64} (h : x.le y = true) : x.minimum y = x := by
  obtain ⟨a, b, hx, hy, -⟩ := le_iff.mp h
  rw [minimum, not_isNaN_of_place? hx, not_isNaN_of_place? hy, h]
  rfl

/-- **A number moved into a box** lies at its own place, or at the end of the box that is nearer. -/
theorem place?_clip {x lo hi : Binary64} {a l u : Int} (hx : x.place? = some a)
    (hlo : lo.place? = some l) (hhi : hi.place? = some u) :
    (x.clip lo hi).place? = some (min (max a l) u) :=
  place?_minimum (place?_maximum hx hlo) hhi

/-- It is the number itself or an end of the box. -/
theorem clip_eq (x lo hi : Binary64) :
    x.clip lo hi = x ∨ x.clip lo hi = lo ∨ x.clip lo hi = hi := by
  have hmax : x.maximum lo = x ∨ x.maximum lo = lo := by
    unfold maximum
    repeat' split
    all_goals simp
  have hmin : x.clip lo hi = x.maximum lo ∨ x.clip lo hi = hi := by
    unfold clip minimum
    repeat' split
    all_goals simp
  rcases hmin with hmin | hmin
  · rw [hmin]
    exact hmax.imp_right .inl
  · exact .inr (.inr hmin)

end Milp.Binary64
