import Mathlib
import Milp.Proofs.Binary64.Whole
import Milp.Proofs.Program.Translation
import Milp.Solve.Engine

/-!
# Start values

A start value is moved into the bounds of its column. What is handed to an engine is also rounded, on integer
columns, and rounding comes last: it may lead out of bounds that are no whole numbers, and then the value is
refused.

* `ColumnData.Contains` — a finite number within the bounds of a column: `contains_clip`.
* `checkInitial_eq_ok_iff` — the check of an initial value accepts exactly these.
* `ColumnData.KeepsStart` — rounding does not lead out of the column: `contains_startValue_iff`.
* `startValues_isOk_iff` — when the start values of a model are accepted.
* `forall₂_contains_fallback` — the fall-back point keeps to all bounds.
-/

namespace Milp

open Binary64 (isBelow_iff isAbove_iff)

/-! ## Rounding to the nearest whole number -/

namespace Binary64

theorem roundQuotient_near (num : ℕ) {den : ℕ} (hden : 0 < den) :
    roundQuotient num den * den < num + den ∧ num < roundQuotient num den * den + den := by
  have hdiv : den * (num / den) + num % den = num := Nat.div_add_mod num den
  have hmod : num % den < den := Nat.mod_lt num hden
  unfold roundQuotient
  generalize num / den = q at hdiv ⊢
  generalize num % den = r at hdiv hmod ⊢
  rw [Nat.mul_comm] at hdiv
  dsimp only
  split
  · omega
  split
  · rw [Nat.add_mul]
    omega
  split
  · omega
  · rw [Nat.add_mul]
    omega

/-- **The nearest whole number** to a finite number is finite, exact, and less than one away. -/
theorem roundEven_exact {x : Binary64} (h : x.isFinite = true) :
    x.roundEven.isFinite = true ∧
      ∃ n : ℤ, x.roundEven.toRat = n ∧ (n : ℚ) < x.toRat + 1 ∧ x.toRat < n + 1 := by
  cases x with
  | nan => cases h
  | infinite s => cases h
  | finite s m =>
    obtain ⟨hbelow, habove⟩ := roundQuotient_near m.units unitsPerOne_pos
    generalize hq : roundQuotient m.units unitsPerOne = q at hbelow habove
    -- the rounded size takes the sign of the number
    obtain ⟨n, hround, hbelow, habove⟩ : ∃ n : ℤ, (finite s m).roundEven = ofWhole s n ∧
        n * unitsPerOne < (finite s m).units + unitsPerOne ∧
          (finite s m).units < n * unitsPerOne + unitsPerOne := by
      cases s with
      | false =>
        have hunits : (finite false m).units = (m.units : ℤ) := rfl
        refine ⟨q, ?_, ?_, ?_⟩
        · show ofWhole false (roundQuotient m.units unitsPerOne : ℕ) = _
          rw [hq]
        · rw [hunits]
          exact_mod_cast hbelow
        · rw [hunits]
          exact_mod_cast habove
      | true =>
        have hunits : (finite true m).units = -(m.units : ℤ) := rfl
        refine ⟨-q, ?_, ?_, ?_⟩
        · show ofWhole true (roundQuotient m.units unitsPerOne : ℕ) = _
          rw [hq, ofWhole, ofWhole, Int.natAbs_neg]
        · rw [hunits]
          zify at habove
          linarith
        · rw [hunits]
          zify at hbelow
          linarith
    obtain ⟨hfinite, hexact⟩ := ofWhole_exact hbelow habove
    have hone := unitsPerOne_cast_pos
    rw [hround]
    refine ⟨hfinite, n, toRat_of_units hexact, ?_, ?_⟩
    · rw [toRat_eq, div_add_one hone.ne', lt_div_iff₀ hone]
      exact_mod_cast hbelow
    · rw [toRat_eq, div_lt_iff₀ hone, add_mul, one_mul]
      exact_mod_cast habove

end Binary64

namespace Model

variable {m : Model}

/-! ## Values in their columns -/

/-- **`c.Contains v`** — a finite number within the bounds of a column. -/
structure ColumnData.Contains (c : ColumnData) (v : Binary64) : Prop where
  finite : v.isFinite = true
  lower : c.lower.le v = true
  upper : v.le c.upper = true

variable {c : ColumnData} {x v : Binary64}

theorem ColumnData.contains_of_bounds (hc : IsRange c.lower c.upper) (hfinite : v.isFinite = true)
    (hlower : c.lower.IsBelow v.toRat) (hupper : c.upper.IsAbove v.toRat) : c.Contains v where
  finite := hfinite
  lower := (Binary64.isBelow_toRat_iff hc.lo_number hc.lo_ne hfinite).mp hlower
  upper := (Binary64.isAbove_toRat_iff hc.hi_number hc.hi_ne hfinite).mp hupper

/-- **A finite number moved into the bounds of a column** is within them. -/
theorem ColumnData.contains_clip (hc : IsRange c.lower c.upper) (hx : x.isFinite = true) :
    c.Contains (x.clip c.lower c.upper) := by
  obtain ⟨hfinite, hlower, hupper⟩ := hc.clip hx
  exact contains_of_bounds hc hfinite hlower hupper

/-! ## The check of an initial value -/

theorem checkAbove_eq_ok_iff (column : ℕ) {hi? : Option Binary64} :
    checkInitial.checkAbove column v hi? = .ok () ↔ ∀ hi, hi? = some hi → ¬ hi.lt v = true := by
  unfold checkInitial.checkAbove
  cases hi? with
  | none => simp
  | some hi =>
    by_cases hlt : hi.lt v = true
    · simp [hlt]
    · simp [hlt]

theorem checkInitial_eq (m : Model) (column : ℕ) (c : ColumnData) (v : Binary64) :
    m.checkInitial column c v = .ok () ↔
      (∀ lo, m.bound? c.lower = some lo → ¬ v.lt lo = true) ∧
        ∀ hi, m.bound? c.upper = some hi → ¬ hi.lt v = true := by
  unfold checkInitial
  rw [← checkAbove_eq_ok_iff column]
  cases m.bound? c.lower with
  | none => simp
  | some lo =>
    by_cases hlt : v.lt lo = true
    · simp [hlt]
    · simp [hlt]

/-- **The check of an initial value accepts exactly the numbers within the bounds.** -/
theorem checkInitial_eq_ok_iff (hI : m.infinity = Binary64.infinity) (hc : IsRange c.lower c.upper)
    (hv : v.isFinite = true) (column : ℕ) : m.checkInitial column c v = .ok () ↔ c.Contains v := by
  have hnumber : v.isNaN = false := Binary64.not_isNaN_of_place? (Binary64.place?_of_isFinite hv)
  have hrange := Binary64.units_lt_sizeLimit hv
  have hlower : (∀ lo, m.bound? c.lower = some lo → ¬ v.lt lo = true) ↔ c.lower.le v = true := by
    rcases hc.lo_cases with hfinite | hinfinite
    · simp [bound?_of_isFinite hI hfinite, ← Binary64.not_lt_iff hnumber hc.lo_number]
    · rw [hinfinite, bound?_of_isInfinite hI rfl]
      exact iff_of_true (by simp) (Binary64.le_iff.mpr
        ⟨_, _, rfl, Binary64.place?_of_isFinite hv, hrange.1.le⟩)
  have hupper : (∀ hi, m.bound? c.upper = some hi → ¬ hi.lt v = true) ↔ v.le c.upper = true := by
    rcases hc.hi_cases with hfinite | hinfinite
    · simp [bound?_of_isFinite hI hfinite, ← Binary64.not_lt_iff hc.hi_number hnumber]
    · rw [hinfinite, bound?_of_isInfinite hI rfl]
      exact iff_of_true (by simp) (Binary64.le_iff.mpr
        ⟨_, _, Binary64.place?_of_isFinite hv, rfl, hrange.2.le⟩)
  rw [checkInitial_eq, hlower, hupper]
  exact ⟨fun h => ⟨hv, h.1, h.2⟩, fun h => ⟨h.lower, h.upper⟩⟩

/-! ## Start values, rounded -/

/-- **Rounding a start value does not lead out of its column**: the whole number nearest to it, once it has been moved
into the bounds of an integer column, is within the bounds as well. -/
def ColumnData.KeepsStart (c : ColumnData) (x : Binary64) : Prop :=
  c.integer = true → c.Contains (x.clip c.lower c.upper).roundEven

/-- **What is handed out is within the bounds** exactly if rounding does not lead out of them. -/
theorem contains_startValue_iff (hc : IsRange c.lower c.upper) (hx : x.isFinite = true) :
    c.Contains (startValue c x) ↔ c.KeepsStart x := by
  unfold startValue ColumnData.KeepsStart
  dsimp only
  cases c.integer with
  | true => simp
  | false => simpa using ColumnData.contains_clip hc hx

theorem isFinite_startValue (hc : IsRange c.lower c.upper) (hx : x.isFinite = true) :
    (startValue c x).isFinite = true := by
  have hclip := (ColumnData.contains_clip hc hx).finite
  unfold startValue
  dsimp only
  split
  · exact (Binary64.roundEven_exact hclip).1
  · exact hclip

/-- A bound of a column that is a whole number, if it is finite. -/
def IsWholeBound (x : Binary64) : Prop := x.isFinite = true → ∃ k : ℤ, x.toRat = k

/-- **Bounds that are whole numbers or infinite keep every start value**: the nearest whole number is on the same side
of a whole number. -/
theorem keepsStart_of_whole (hc : IsRange c.lower c.upper) (hlower : IsWholeBound c.lower)
    (hupper : IsWholeBound c.upper) (hx : x.isFinite = true) : c.KeepsStart x := by
  intro _
  obtain ⟨hclip, hlo, hhi⟩ := hc.clip hx
  obtain ⟨hfinite, n, hn, hbelow, habove⟩ := Binary64.roundEven_exact hclip
  refine ColumnData.contains_of_bounds hc hfinite ?_ ?_
  · rw [hn]
    rcases hc.lo_cases with hlofinite | hinfinite
    · obtain ⟨k, hk⟩ := hlower hlofinite
      rw [isBelow_iff hlofinite, hk] at hlo ⊢
      have hkn : (k : ℚ) < n + 1 := lt_of_le_of_lt hlo habove
      exact_mod_cast Int.lt_add_one_iff.mp (by exact_mod_cast hkn)
    · rw [hinfinite]
      exact Binary64.isBelow_negInfinity
  · rw [hn]
    rcases hc.hi_cases with hhifinite | hinfinite
    · obtain ⟨k, hk⟩ := hupper hhifinite
      rw [isAbove_iff hhifinite, hk] at hhi ⊢
      have hnk : (n : ℚ) < k + 1 := lt_of_lt_of_le hbelow (by linarith)
      exact_mod_cast Int.lt_add_one_iff.mp (by exact_mod_cast hnk)
    · rw [hinfinite]
      exact Binary64.isAbove_infinity

/-! ## The start values of a model -/

/-- **Column by column**: the start values are accepted if every column keeps its own, and then they are handed out. -/
theorem initialFrom_eq_ok_iff (hI : m.infinity = Binary64.infinity) {cs : List ColumnData}
    {xs : List Binary64} (hcs : ∀ c ∈ cs, IsRange c.lower c.upper) (hxs : ∀ x ∈ xs, x.isFinite = true)
    (column : ℕ) {initial : List (Option Binary64)} :
    m.initialFrom column cs xs = .ok initial ↔
      (∀ p ∈ cs.zip xs, p.1.KeepsStart p.2) ∧ initial = (List.zipWith startValue cs xs).map some := by
  induction cs generalizing column xs initial with
  | nil => simp [initialFrom, eq_comm]
  | cons c cs ih =>
    cases xs with
    | nil => simp [initialFrom, eq_comm]
    | cons x xs =>
      obtain ⟨hc, hcs⟩ := List.forall_mem_cons.mp hcs
      obtain ⟨hx, hxs⟩ := List.forall_mem_cons.mp hxs
      have hcheck := (checkInitial_eq_ok_iff hI hc (isFinite_startValue hc hx) column).trans
        (contains_startValue_iff hc hx)
      rw [List.zip_cons_cons, List.forall_mem_cons, List.zipWith_cons_cons, List.map_cons]
      show (m.checkInitial column c (startValue c x) >>= fun _ =>
        m.initialFrom (column + 1) cs xs >>= fun rest => pure (some (startValue c x) :: rest)) = _ ↔ _
      constructor
      · intro h
        obtain ⟨_, hfirst, h⟩ := bind_eq_ok_iff.mp h
        obtain ⟨rest, hrest, h⟩ := bind_eq_ok_iff.mp h
        obtain ⟨hkeeps, rfl⟩ := (ih hcs hxs (column + 1)).mp hrest
        cases h
        exact ⟨⟨hcheck.mp hfirst, hkeeps⟩, rfl⟩
      · rintro ⟨⟨hfirst, hkeeps⟩, rfl⟩
        rw [hcheck.mpr hfirst, (ih hcs hxs (column + 1)).mpr ⟨hkeeps, rfl⟩]
        rfl

theorem length_columnData (hm : m.WellFormed) : m.columnData.length = m.columns := by
  rw [← hm.objective_length, ← hm.map_objective, List.length_map]

variable {config : Config}

/-- The settings do not allow start values, or the model has none, or no column loses its own by rounding. -/
def KeepsStart (m : Model) (config : Config) : Prop :=
  config.warmStart.toFlag = true → ∀ start, m.start = some start →
    ∀ p ∈ m.columnData.zip start, p.1.KeepsStart p.2

/-- Without initial values every column begins with none. -/
theorem forall₂_none {P : ColumnData → Binary64 → Prop} (hm : m.WellFormed) :
    List.Forall₂ (fun c v? => ∀ v, v? = some v → P c v) m.columnData (List.replicate m.columns none) := by
  refine List.forall₂_iff_zip.mpr ⟨by rw [length_columnData hm, List.length_replicate], ?_⟩
  intro c v? hmem v hv
  rw [List.eq_of_mem_replicate (List.of_mem_zip hmem).2] at hv
  cases hv

/-- **When start values are accepted.** -/
theorem startValues_isOk_iff (hm : m.WellFormed) (hI : m.infinity = Binary64.infinity) :
    (∃ start, m.startValues config = .ok start) ↔ m.KeepsStart config := by
  unfold startValues KeepsStart
  cases hstart : m.start with
  | none => simp
  | some start =>
    obtain ⟨-, hfinite⟩ := hm.start_finite start hstart
    have hfrom : ∀ initial, m.initialFrom 0 m.columnData start = .ok initial ↔ _ := fun _ =>
      initialFrom_eq_ok_iff hI (fun c hc => hm.isRange hI hc) hfinite 0
    dsimp only
    cases config.warmStart.toFlag with
    | false => simp
    | true =>
      simp only [if_true, true_implies, Option.some.injEq, forall_eq']
      constructor
      · rintro ⟨given, h⟩
        obtain ⟨initial, hinitial, -⟩ := bind_eq_ok_iff.mp h
        exact ((hfrom initial).mp hinitial).1
      · intro hkeeps
        rw [(hfrom _).mpr ⟨hkeeps, rfl⟩]
        exact ⟨_, rfl⟩

/-- **Whatever is handed out is within the bounds**, column by column. -/
theorem forall₂_contains_initial (hm : m.WellFormed) (hI : m.infinity = Binary64.infinity) {warm : Bool}
    {initial : List (Option Binary64)} (h : m.startValues config = .ok (warm, initial)) :
    List.Forall₂ (fun c v? => ∀ v, v? = some v → c.Contains v) m.columnData initial := by
  unfold startValues at h
  split at h
  · rename_i start hstart
    obtain ⟨hlength, hfinite⟩ := hm.start_finite start hstart
    split at h
    · obtain ⟨vs, hvs, h⟩ := bind_eq_ok_iff.mp h
      cases h
      obtain ⟨hkeeps, rfl⟩ :=
        (initialFrom_eq_ok_iff hI (fun c hc => hm.isRange hI hc) hfinite 0).mp hvs
      refine List.forall₂_map_right_iff.mpr (List.forall₂_iff_get.mpr ⟨?_, fun j hj hj' => ?_⟩)
      · rw [List.length_zipWith, length_columnData hm, hlength, Nat.min_self]
      · have hjs : j < start.length := by rw [hlength, ← length_columnData hm]; exact hj
        intro v hv
        cases hv
        have hmem : (m.columnData[j], start[j]) ∈ m.columnData.zip start :=
          List.mem_iff_getElem.mpr ⟨j, by simp [hj, hjs], List.getElem_zip⟩
        have hrange := hm.isRange hI (List.getElem_mem hj)
        show m.columnData[j].Contains (List.zipWith startValue m.columnData start)[j]
        rw [List.getElem_zipWith]
        exact (contains_startValue_iff hrange (hfinite _ (List.getElem_mem hjs))).mpr (hkeeps _ hmem)
    · cases h
      exact forall₂_none hm
  · cases h
    exact forall₂_none hm

/-! ## The fall-back point -/

/-- Numbers moved into the bounds of columns, column by column. -/
theorem forall₂_clipInto {xs los his cs : List Binary64} {bs : List Bool} (hxs : xs.length = cs.length)
    (hlos : los.length = cs.length) (hhis : his.length = cs.length) (hbs : bs.length = cs.length)
    (hfinite : ∀ x ∈ xs, x.isFinite = true) (hrange : ∀ c ∈ zipColumns los his cs bs, IsRange c.lower c.upper) :
    List.Forall₂ ColumnData.Contains (zipColumns los his cs bs) (clipInto xs los his) := by
  induction cs generalizing xs los his bs with
  | nil =>
    rw [List.length_nil, List.length_eq_zero_iff] at hxs hlos
    subst hxs hlos
    exact .nil
  | cons c cs ih =>
    obtain ⟨x, xs, rfl⟩ := List.exists_cons_of_length_eq_add_one hxs
    obtain ⟨lo, los, rfl⟩ := List.exists_cons_of_length_eq_add_one hlos
    obtain ⟨hi, his, rfl⟩ := List.exists_cons_of_length_eq_add_one hhis
    obtain ⟨b, bs, rfl⟩ := List.exists_cons_of_length_eq_add_one hbs
    simp only [List.length_cons, Nat.add_right_cancel_iff] at hxs hlos hhis hbs
    obtain ⟨hx, hfinite⟩ := List.forall_mem_cons.mp hfinite
    obtain ⟨hc, hrange⟩ := List.forall_mem_cons.mp hrange
    exact .cons (ColumnData.contains_clip hc hx) (ih hxs hlos hhis hbs hfinite hrange)

/-- **The fall-back point keeps to all bounds.** -/
theorem forall₂_contains_fallback (hm : m.WellFormed) (hI : m.infinity = Binary64.infinity) :
    List.Forall₂ ColumnData.Contains m.columnData m.fallback := by
  have hobjective := hm.objective_length
  have hbase : (m.start.getD (List.replicate m.columns Binary64.zero)).length = m.columns ∧
      ∀ x ∈ m.start.getD (List.replicate m.columns Binary64.zero), x.isFinite = true := by
    cases hstart : m.start with
    | none =>
      refine ⟨List.length_replicate, fun x hx => ?_⟩
      rw [List.eq_of_mem_replicate hx]
      rfl
    | some start => exact hm.start_finite start hstart
  exact forall₂_clipInto (hbase.1.trans hobjective.symm) (hm.lower_length.trans hobjective.symm)
    (hm.upper_length.trans hobjective.symm) (hm.integer_length.trans hobjective.symm) hbase.2
    fun c hc => hm.isRange hI hc

end Model

end Milp
