import Milp.Instance.Generate
import Milp.Proofs.Batch.Pieces
import Milp.Proofs.Random.Draws
import Milp.Proofs.Row.Dense
import Milp.Proofs.Steps

/-!
# What is generated

Whatever a source draws, if it keeps to what it is asked for, its instances are selection problems: columns from zero
up to a positive bound, and rows of positive coefficients, in increasing order of columns, with a budget that is not
negative. Sums over a pattern stay finite because no pattern is longer than 2⁵³ columns.

* `Shape.ranges` — the numbers that are asked for.
* `Row.IsDrawn`, `BoundedRow.IsBudget` and `Instance.IsSelection` — what is drawn.
* `Shape.IsDrawable` — the shapes for which that holds: `isSelection_draw`.
* `Instance.WellFormed` — an instance whose parts go together: `Instance.IsSelection.wellFormed`.
* `Instance.LacksUpper` — what is drawn for no thresholds at all: `lacksUpper_draw`.
-/

namespace Milp

open Milp.Random (Source times)

/-! ## Selection problems -/

/-- **A pattern**: `k` of `n` columns in increasing order, with coefficients between one and five. -/
structure Row.IsDrawn (n k : ℕ) (r : Row) : Prop where
  fits : r.Fits n
  increasing : r.indices.Pairwise (· < ·)
  size : r.size = k
  coeffs : ∀ c ∈ r.coeffs, c.Between 1 5

/-- **A pattern with a budget**: a finite upper bound that is not negative, and no lower bound. -/
structure BoundedRow.IsBudget (n k : ℕ) (r : BoundedRow) : Prop where
  row : r.row.IsDrawn n k
  lo : r.lo = Binary64.negInfinity
  hi_finite : r.hi.isFinite = true
  hi_nonneg : Binary64.zero.le r.hi = true

/-- **A selection problem**: `n` columns from zero up to between one and five, and `rows` budgets for not more than
`patterns` patterns of `k` columns. -/
structure Instance.IsSelection (n rows patterns k : ℕ) (p : Instance) : Prop where
  columns : p.columns = n
  objective : ∀ x ∈ p.objective, x.Between (-1) 10
  lower : p.lower = List.replicate n Binary64.zero
  upper : ∃ us : List Binary64, p.upper = .vector us ∧ us.length = n ∧ ∀ u ∈ us, u.Between 1 5
  integer : ∃ bs : List Bool, p.integer = .vector bs ∧ bs.length = n
  rows_length : p.rows.length = rows
  rows : ∀ r ∈ p.rows, r.IsBudget n k
  pool : ∃ pool : List Row, pool.length = patterns ∧ ∀ r ∈ p.rows, r.row ∈ pool

/-! ## Instances in order -/

/-- **An instance whose parts go together**: vectors of one length, bounds that leave room, rows that fit. -/
structure Instance.WellFormed (p : Instance) : Prop where
  objective_finite : ∀ x ∈ p.objective, x.isFinite = true
  lower_length : p.lower.length = p.columns
  upper : ∃ us : List Binary64, p.upper = .vector us ∧ us.length = p.columns ∧
    ∀ b ∈ p.lower.zip us, IsRange b.1 b.2
  integer : ∃ bs : List Bool, p.integer = .vector bs ∧ bs.length = p.columns
  rows_fit : ∀ r ∈ p.rows, r.Fits p.columns

/-- **An instance without upper bounds** for the columns that it has. -/
structure Instance.LacksUpper (p : Instance) : Prop where
  columns_pos : 0 < p.columns
  objective_finite : ∀ x ∈ p.objective, x.isFinite = true
  lower : p.lower = List.replicate p.columns Binary64.zero
  upper : p.upper = .vector []
  integer : p.integer = .vector []

/-! ## Two lists at once -/

theorem Grid.zipWith_vector {α β γ : Type} (f : α → β → γ) {xs : List α} {ys : List β} (h : xs.length = ys.length) :
    (Grid.vector xs).zipWith f (Grid.vector ys) = .vector (List.zipWith f xs ys) := by
  have hlength : (List.zipWith f xs ys).length = xs.length := by
    rw [List.length_zipWith, h, Nat.min_self]
  show (⟨[xs.length], _⟩ : Grid γ) = ⟨[(List.zipWith f xs ys).length], _⟩
  rw [hlength]
  rfl

theorem forall_mem_zipWith {α β γ : Type} {f : α → β → γ} {P : γ → Prop} {xs : List α} {ys : List β}
    (h : ∀ a, ∀ b ∈ ys, P (f a b)) : ∀ c ∈ List.zipWith f xs ys, P c := by
  intro c hc
  rw [← List.map_uncurry_zip_eq_zipWith] at hc
  obtain ⟨p, hp, rfl⟩ := List.mem_map.mp hc
  exact h p.1 p.2 (List.of_mem_zip hp).2

/-! ## Ranges -/

/-- Bounds on the two sides of zero. -/
theorem isRange_of_zero {lo hi : Binary64} (hlo : lo.le Binary64.zero = true) (hhi : Binary64.zero.le hi = true) :
    IsRange lo hi where
  inOrder := by
    obtain ⟨l, z, hl, hz, hlz⟩ := Binary64.le_iff.mp hlo
    obtain ⟨z', h, hz', hh, hzh⟩ := Binary64.le_iff.mp hhi
    cases hz.symm.trans hz'
    exact Binary64.le_iff.mpr ⟨l, h, hl, hh, hlz.trans hzh⟩
  lo_ne := by
    rintro rfl
    exact absurd hlo (by decide +kernel)
  hi_ne := by
    rintro rfl
    exact absurd hhi (by decide +kernel)

theorem zero_le_zero : Binary64.zero.le Binary64.zero = true := by decide +kernel

theorem negInfinity_le_zero : Binary64.negInfinity.le Binary64.zero = true := by decide +kernel

theorem BoundedRow.IsBudget.fits {n k : ℕ} {r : BoundedRow} (h : r.IsBudget n k) : r.Fits n :=
  ⟨h.row.fits, h.lo ▸ isRange_of_zero negInfinity_le_zero h.hi_nonneg⟩

/-- **Selection problems are in order.** -/
theorem Instance.IsSelection.wellFormed {n rows patterns k : ℕ} {p : Instance}
    (h : p.IsSelection n rows patterns k) : p.WellFormed := by
  obtain ⟨us, hus, huslength, hbetween⟩ := h.upper
  refine ⟨fun x hx => (h.objective x hx).isFinite, ?_, ⟨us, hus, huslength.trans h.columns.symm, ?_⟩, ?_, ?_⟩
  · rw [h.lower, h.columns, List.length_replicate]
  · intro b hb
    obtain ⟨hlo, hhi⟩ := List.of_mem_zip hb
    rw [h.lower] at hlo
    rw [List.eq_of_mem_replicate hlo]
    exact isRange_of_zero zero_le_zero ((hbetween b.2 hhi).zero_le Int.one_pos)
  · rw [h.columns]
    exact h.integer
  · rw [h.columns]
    exact fun r hr => (h.rows r hr).fits

/-! ## Single draws -/

/-- Tenths of one. -/
theorem between_tenths {n : ℕ} (hn : n ≤ 10) : (Shape.tenths n).Between 0 1 := by
  have hzero : (Binary64.finite false Size.zero).Between 0 1 := by
    refine Binary64.between_finite.mpr ⟨le_of_eq (Int.zero_mul _), ?_⟩
    exact Int.mul_nonneg (by decide) (Int.natCast_nonneg _)
  unfold Shape.tenths Binary64.ofDecimal
  split
  · exact hzero
  have hfar : ¬ ((n.log2 : ℤ) + 3 * (-1) > 2100 ∧ (0 : ℤ) ≤ -1) := by omega
  have hnear : ¬ (n.log2 : ℤ) + 3 * (-1) < -1200 := by omega
  have hneg : ¬ (0 : ℤ) ≤ -1 := by omega
  rw [if_neg hfar, if_neg hneg, if_neg hnear]
  refine Binary64.between_ofRatio (by decide) (by decide) (by decide) ?_ ?_
  · rw [Int.zero_mul, Int.zero_mul]
    exact Int.natCast_nonneg _
  · show ((n * unitsPerOne : ℕ) : ℤ) ≤ 1 * unitsPerOne * (10 : ℕ)
    have := Nat.mul_le_mul_right unitsPerOne hn
    omega

namespace Shape

/-- **The ranges that numbers are asked from**: for the objective, for coefficients and upper bounds, and for the part
of a sum that a budget is. -/
def ranges : List (Binary64 × Binary64) :=
  [(Binary64.ofInt (-1), Binary64.ofNat 10), (Binary64.ofNat 1, Binary64.ofNat 5), (tenths 2, tenths 6)]

variable {σ : Type} {source : Source σ} {shape : Shape}

/-- **Shapes of instances that a model can take**: a pattern needs no more columns than there are. -/
structure IsDrawable (shape : Shape) : Prop where
  columns_le : shape.columns ≤ 2 ^ 53
  patternSize_le : shape.patternSize ≤ shape.columns
  patterns_pos : 0 < shape.patterns
  thresholds : ∃ ts : List Arg.Real, shape.thresholds = .vector ts ∧ ts.length = shape.columns

/-- A number that is drawn between two whole numbers and rounded stays between them. -/
theorem between_drawRounded (hsource : source.Keeps ranges) {a b : ℤ}
    (hrange : (Binary64.ofInt a, Binary64.ofInt b) ∈ ranges) {places : ℕ} (hplaces : 10 ^ places ≤ 2 ^ 53)
    (ha : (a * (10 ^ places : ℕ)).natAbs ≤ 2 ^ 53) (hb : (b * (10 ^ places : ℕ)).natAbs ≤ 2 ^ 53) (s : σ) :
    (drawRounded source (Binary64.ofInt a) (Binary64.ofInt b) places s).1.Between a b := by
  have hpos : 0 < 10 ^ places := Nat.pow_pos (by decide)
  have hsmall {c : ℤ} (hc : (c * (10 ^ places : ℕ)).natAbs ≤ 2 ^ 53) : c.natAbs ≤ 2 ^ 53 := by
    rw [Int.natAbs_mul, Int.natAbs_natCast] at hc
    exact (Nat.le_mul_of_pos_right _ hpos).trans hc
  obtain ⟨hlower, hupper⟩ := hsource.uniform _ hrange s
  have hdrawn := Binary64.between_of_le (Binary64.between_ofInt (hsmall ha)) (Binary64.between_ofInt (hsmall hb))
    hlower hupper
  exact hdrawn.roundPlaces hplaces ha hb

/-- A coefficient of the objective. -/
theorem between_drawObjective (hsource : source.Keeps ranges) (s : σ) :
    (drawRounded source (Binary64.ofInt (-1)) (Binary64.ofNat 10) 3 s).1.Between (-1) 10 :=
  between_drawRounded hsource (b := 10) (by simp [ranges, Binary64.ofNat]) (by decide) (by decide) (by decide) s

/-- A coefficient of a row, or an upper bound. -/
theorem between_drawPositive (hsource : source.Keeps ranges) (places : ℕ) (hplaces : places ≤ 3) (s : σ) :
    (drawRounded source (Binary64.ofNat 1) (Binary64.ofNat 5) places s).1.Between 1 5 := by
  have hpow : 10 ^ places ≤ 10 ^ 3 := Nat.pow_le_pow_right (by decide) hplaces
  have hsmall (c : ℤ) (hc : c.natAbs ≤ 5) : (c * (10 ^ places : ℕ)).natAbs ≤ 2 ^ 53 := by
    rw [Int.natAbs_mul, Int.natAbs_natCast]
    exact (Nat.mul_le_mul hc hpow).trans (by decide)
  exact between_drawRounded hsource (a := 1) (b := 5) (by simp [ranges, Binary64.ofNat]) (hpow.trans (by decide))
    (hsmall 1 (by decide)) (hsmall 5 (by decide)) s

/-! ## Patterns and rows -/

/-- Positions that have been put in order are increasing indices. -/
theorem increasing_mergeSort {n : ℕ} (hn : n ≤ 2 ^ 53) {chosen : List ℕ} (hnodup : chosen.Nodup)
    (hlt : ∀ v ∈ chosen, v < n) : ((chosen.mergeSort (· ≤ ·)).map Int64.ofNat).Pairwise (· < ·) ∧
      ∀ i ∈ (chosen.mergeSort (· ≤ ·)).map Int64.ofNat, 0 ≤ i.toInt ∧ i.toInt < n := by
  have hperm := List.mergeSort_perm chosen (· ≤ ·)
  have hvalue : ∀ v ∈ chosen.mergeSort (· ≤ ·), v < n ∧ (Int64.ofNat v).toInt = v := by
    intro v hv
    have hmax : Int64.maxValue.toInt = 9223372036854775807 := rfl
    have := hlt v (hperm.mem_iff.mp hv)
    exact ⟨this, toInt_ofNat (by omega)⟩
  have hsorted : (chosen.mergeSort (· ≤ ·)).Pairwise (· < ·) := by
    have hle := List.pairwise_mergeSort' (· ≤ ·) chosen
    have hne : (chosen.mergeSort (· ≤ ·)).Pairwise (· ≠ ·) := hperm.nodup_iff.mpr hnodup
    exact (hle.and hne).imp fun h => lt_of_le_of_ne h.1 h.2
  constructor
  · rw [List.pairwise_map]
    refine hsorted.imp_of_mem fun hv hw hvw => ?_
    rw [Int64.lt_iff_toInt_lt, (hvalue _ hv).2, (hvalue _ hw).2]
    exact Int.ofNat_lt.mpr hvw
  · intro i hi
    obtain ⟨v, hv, rfl⟩ := List.mem_map.mp hi
    obtain ⟨hvn, hvalue⟩ := hvalue v hv
    omega

/-- **A pattern that is drawn.** -/
theorem drawPattern_spec (hsource : source.Keeps ranges) (hshape : shape.IsDrawable) (s : σ) :
    (drawPattern source shape s).1.IsDrawn shape.columns shape.patternSize := by
  obtain ⟨hlength, hnodup, hlt⟩ := hsource.choose shape.columns shape.patternSize s hshape.patternSize_le
  generalize hchosen : source.choose shape.columns shape.patternSize s = chosen at hlength hnodup hlt
  obtain ⟨hincreasing, hinRange⟩ := increasing_mergeSort hshape.columns_le hnodup hlt
  have hcoeffs := Random.forall_mem_times (p := fun c => Binary64.Between 1 5 c)
    (between_drawPositive hsource 2 (by decide)) shape.patternSize chosen.2
  have hcount := Random.length_times (drawRounded source (Binary64.ofNat 1) (Binary64.ofNat 5) 2) shape.patternSize
    chosen.2
  have hrow : (drawPattern source shape s).1 = .ofArrays ((chosen.1.mergeSort (· ≤ ·)).map Int64.ofNat)
      (times (drawRounded source (Binary64.ofNat 1) (Binary64.ofNat 5) 2) shape.patternSize chosen.2).1 := by
    rw [← hchosen]
    rfl
  have hsize : ((chosen.1.mergeSort (· ≤ ·)).map Int64.ofNat).length = shape.patternSize := by
    rw [List.length_map, (List.mergeSort_perm _ _).length_eq, hlength]
  rw [hrow]
  exact ⟨⟨hsize.trans hcount.symm, hinRange, hincreasing.imp Int64.ne_of_lt, fun c hc => (hcoeffs c hc).isFinite⟩,
    hincreasing, hsize, hcoeffs⟩

/-- The part of a sum that a budget is. -/
theorem drawShare_spec (hsource : source.Keeps ranges) (s : σ) :
    (source.uniform (tenths 2) (tenths 6) s).1.Between 0 1 ∧
      (source.uniform (tenths 2) (tenths 6) s).1.isNegative = false := by
  obtain ⟨hlower, hupper⟩ := hsource.uniform (tenths 2, tenths 6) (by simp [ranges]) s
  have hlo : (tenths 2).Between 0 1 := between_tenths (by decide)
  have hshare := Binary64.between_of_le hlo (between_tenths (n := 6) (by decide)) hlower hupper
  refine ⟨hshare, Binary64.isNegative_of_units_pos ?_⟩
  have hpos : 0 < (tenths 2).units := by decide +kernel
  exact hpos.trans_le ((Binary64.le_iff_units hlo.isFinite hshare.isFinite).mp hlower)

/-- **A budget is finite and not negative**: the share is at most one, and no sum is too large. -/
theorem budget_spec {n k : ℕ} (hk : k ≤ 2 ^ 53) {r : Row} (hr : r.IsDrawn n k) {share : Binary64}
    (hshare : share.Between 0 1) (hsign : share.isNegative = false) :
    ((share.mul (Binary64.sum r.coeffs)).roundPlaces 2).isFinite = true ∧
      Binary64.zero.le ((share.mul (Binary64.sum r.coeffs)).roundPlaces 2) = true := by
  have hlength : r.coeffs.length = k := hr.fits.lengths.symm.trans hr.size
  have hscaled : ∀ j e : ℕ, j ≤ k → e ≤ 900 → Representable (j * 2 ^ e * unitsPerOne) := fun j e hj he =>
    Binary64.representable_scaled (hj.trans hk) he
  have hcoeffs : ∀ c ∈ r.coeffs, c.AtMost (2 ^ 3) := fun c hc => (hr.coeffs c hc).atMost (by decide) (by decide)
  have hsum := Binary64.atMost_sum hcoeffs fun j hj => hscaled j 3 (hlength ▸ hj) (by decide)
  rw [hlength] at hsum
  have hproduct := (hshare.atMost (n := 1) (by decide) (by decide)).mul hsum (by
    rw [Nat.one_mul]
    exact hscaled k 3 le_rfl (by decide))
  rw [Nat.one_mul] at hproduct
  have hbudget := hproduct.roundPlaces (show 10 ^ 2 ≤ 2 ^ 7 by decide) (by decide) (by
    have hpow : k * 2 ^ 3 * 2 ^ 7 = k * 2 ^ 10 := by ring
    rw [hpow]
    exact hscaled k 10 le_rfl (by decide))
  have hpositive : (Binary64.sum r.coeffs).isNegative = false :=
    Binary64.isNegative_sum fun c hc => (hr.coeffs c hc).isNegative Int.one_pos
  exact ⟨hbudget.isFinite, Binary64.zero_le_of_isNegative hbudget.isFinite
    (Binary64.isNegative_roundPlaces (Binary64.isNegative_mul hsign hpositive) (by decide))⟩

/-- **A row that is drawn**: one of the patterns, with a budget. -/
theorem drawRow_spec (hsource : source.Keeps ranges) {pool : List Row} {n k : ℕ} (hpos : 0 < pool.length)
    (hk : k ≤ 2 ^ 53) (hpool : ∀ r ∈ pool, r.IsDrawn n k) (s : σ) :
    (drawRow source pool s).1.IsBudget n k ∧ (drawRow source pool s).1.row ∈ pool := by
  have hbelow := hsource.below pool.length s hpos
  generalize hposition : source.below pool.length s = position at hbelow
  have hmem : pool[position.1] ∈ pool := List.getElem_mem hbelow
  have hgetD : pool.getD position.1 (.ofArrays [] []) = pool[position.1] := List.getD_eq_getElem _ _ hbelow
  have hrow : (drawRow source pool s).1 = ⟨pool[position.1], Binary64.negInfinity,
      (((source.uniform (tenths 2) (tenths 6) position.2).1).mul (Binary64.sum pool[position.1].coeffs)).roundPlaces
        2⟩ := by
    rw [← hgetD, ← hposition]
    rfl
  obtain ⟨hshare, hsign⟩ := drawShare_spec hsource position.2
  obtain ⟨hfinite, hnonneg⟩ := budget_spec hk (hpool _ hmem) hshare hsign
  rw [hrow]
  exact ⟨⟨hpool _ hmem, rfl, hfinite, hnonneg⟩, hmem⟩

/-! ## Instances -/

/-- The draws of an instance, one after the other. -/
theorem exists_draw (source : Source σ) (shape : Shape) (s : σ) : ∃ s₁ s₂ s₃ s₄ : σ,
    let shares := (times source.unit shape.columns s₁).1
    let uppers := (times (drawRounded source (Binary64.ofNat 1) (Binary64.ofNat 5) 3) shape.columns s₂).1
    let pool := (times (drawPattern source shape) shape.patterns s₃).1
    let each := fun xs => (Grid.vector xs).stretched shape.thresholds.shape
    let integer := (each shares).zipWith (fun x t => (Arg.Real.float x).lt t) shape.thresholds
    (shape.draw source s).1 =
      { objective :=
          (times (drawRounded source (Binary64.ofInt (-1)) (Binary64.ofNat 10) 3) shape.columns s).1
        lower := List.replicate shape.columns Binary64.zero
        upper := integer.zipWith (fun b u => if b then Binary64.one else u) (each uppers)
        integer := integer
        rows := (times (drawRow source pool) shape.rows s₄).1 } :=
  ⟨_, _, _, _, rfl⟩

/-- **What is drawn is a selection problem** of the shape that was asked for. -/
theorem isSelection_draw (hsource : source.Keeps ranges) (hshape : shape.IsDrawable) (s : σ) :
    (shape.draw source s).1.IsSelection shape.columns shape.rows shape.patterns shape.patternSize := by
  obtain ⟨ts, hts, htslength⟩ := hshape.thresholds
  obtain ⟨s₁, s₂, s₃, s₄, hdraw⟩ := exists_draw source shape s
  have hobjective := Random.forall_mem_times (p := fun x => Binary64.Between (-1) 10 x)
    (between_drawObjective hsource) shape.columns s
  have huppers := Random.forall_mem_times (p := fun x => Binary64.Between 1 5 x)
    (between_drawPositive hsource 3 le_rfl) shape.columns s₂
  have hpool := Random.forall_mem_times (p := fun r : Row => r.IsDrawn shape.columns shape.patternSize)
    (drawPattern_spec hsource hshape) shape.patterns s₃
  have hsize := Random.length_times (drawPattern source shape) shape.patterns s₃
  generalize (times (drawPattern source shape) shape.patterns s₃).1 = pool at hdraw hpool hsize
  have hrows := Random.forall_mem_times (p := fun r : BoundedRow => r.IsBudget shape.columns shape.patternSize ∧
    r.row ∈ pool) (drawRow_spec hsource (hsize.symm ▸ hshape.patterns_pos)
    (hshape.patternSize_le.trans hshape.columns_le) hpool) shape.rows s₄
  have hcount := Random.length_times (drawRow source pool) shape.rows s₄
  -- the lists that were drawn have the lengths that were asked for
  have hwidth := Random.length_times (drawRounded source (Binary64.ofInt (-1)) (Binary64.ofNat 10) 3) shape.columns s
  have hshares := Random.length_times source.unit shape.columns s₁
  have hlength :=
    Random.length_times (drawRounded source (Binary64.ofNat 1) (Binary64.ofNat 5) 3) shape.columns s₂
  generalize (times source.unit shape.columns s₁).1 = shares at hdraw hshares
  generalize (times (drawRounded source (Binary64.ofNat 1) (Binary64.ofNat 5) 3) shape.columns s₂).1 = uppers
    at hdraw huppers hlength
  have heach : ∀ xs : List Binary64, xs.length = shape.columns →
      (Grid.vector xs).stretched shape.thresholds.shape = .vector xs := by
    intro xs hxs
    rw [hts, Grid.shape_vector, htslength, ← hxs]
    exact Grid.stretched_vector xs
  have hflags := Grid.zipWith_vector (fun (x : Binary64) t => (Arg.Real.float x).lt t) (hshares.trans htslength.symm)
  simp only [heach shares hshares, heach uppers hlength] at hdraw
  rw [hts, hflags] at hdraw
  generalize hbs : List.zipWith (fun (x : Binary64) t => (Arg.Real.float x).lt t) shares ts = bs at hdraw
  have hbslength : bs.length = shape.columns := by
    rw [← hbs, List.length_zipWith, hshares, htslength, Nat.min_self]
  rw [Grid.zipWith_vector _ (hbslength.trans hlength.symm)] at hdraw
  rw [hdraw]
  refine ⟨hwidth, hobjective, rfl, ⟨_, rfl, ?_, ?_⟩, ⟨bs, rfl, hbslength⟩, hcount, fun r hr => (hrows r hr).1,
    pool, hsize, fun r hr => (hrows r hr).2⟩
  · rw [List.length_zipWith, hbslength, hlength, Nat.min_self]
  · refine forall_mem_zipWith fun b u hu => ?_
    cases b with
    | true =>
      have hone : Binary64.one.Between 1 1 := Binary64.between_ofInt (by decide)
      exact ⟨hone.isFinite, hone.lower,
        hone.upper.trans (Int.mul_le_mul_of_nonneg_right (by decide) (Int.natCast_nonneg _))⟩
    | false => exact huppers u hu

/-- **No thresholds leave no upper bounds**: the draws for the columns are cut down to them. -/
theorem lacksUpper_draw (hsource : source.Keeps ranges) (hpos : 0 < shape.columns)
    (hthresholds : shape.thresholds = .vector []) (s : σ) : (shape.draw source s).1.LacksUpper := by
  obtain ⟨s₁, s₂, s₃, s₄, hdraw⟩ := exists_draw source shape s
  have hobjective := Random.forall_mem_times (p := fun x => Binary64.isFinite x = true)
    (fun s => (between_drawObjective hsource s).isFinite) shape.columns s
  have hwidth := Random.length_times (drawRounded source (Binary64.ofInt (-1)) (Binary64.ofNat 10) 3) shape.columns s
  -- whatever has been drawn, there are no thresholds to compare it with
  have hempty : ∀ xs : List Binary64, ((Grid.vector xs).stretched [0]).zipWith
      (fun (x : Binary64) t => (Arg.Real.float x).lt t) (.vector []) = .vector [] := by
    intro xs
    unfold Grid.zipWith
    rw [Grid.entries_vector, List.zipWith_nil_right]
    rfl
  simp only [hthresholds, Grid.shape_vector, List.length_nil, hempty] at hdraw
  have hcolumns : (shape.draw source s).1.columns = shape.columns := by
    rw [hdraw]
    exact hwidth
  refine ⟨hcolumns.symm ▸ hpos, ?_, ?_, ?_, ?_⟩
  · rw [hdraw]
    exact hobjective
  · rw [hcolumns, hdraw]
  · rw [hdraw]
    rfl
  · rw [hdraw]

end Shape

end Milp
