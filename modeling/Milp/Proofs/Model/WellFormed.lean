import Milp.Model.Edit
import Milp.Proofs.Batch.Reading
import Milp.Proofs.Model.Additions

/-!
# Well-formed models

What holds of every model that has been built by edits, whatever their arguments were and whether they were
accepted or refused.

* `IsBox` — bounds of a column in a model with a given infinity.
* `Model.WellFormed` — the invariant: vectors of the right length, boxes, finite numbers, rows that fit.
* `WellFormed.apply` — every edit keeps it, and the row cache sound.
-/

namespace Milp

/-! ## Boxes -/

/-- **`IsBox I lo hi`** — bounds of a column where `I` counts as infinite: in order, neither beyond infinity
nor at its wrong end. -/
structure IsBox (I lo hi : Binary64) : Prop where
  lo_ge : I.neg.le lo = true
  lo_lt : lo.lt I = true
  hi_gt : I.neg.lt hi = true
  hi_le : hi.le I = true
  inOrder : lo.le hi = true

namespace Binary64

theorem place?_neg (x : Binary64) : x.neg.place? = x.place?.map (- ·) := by
  cases x with
  | nan => rfl
  | infinite s => cases s <;> simp [neg, place?]
  | finite s m => cases s <;> simp [neg, place?]

end Binary64

open Binary64 (place?_neg place?_maximum place?_minimum)

/-- From zero to infinity is a box. -/
theorem isBox_blank {I : Binary64} (hI : Binary64.zero.lt I = true) : IsBox I Binary64.zero I := by
  obtain ⟨z, i, hz, hi, hlt⟩ := Binary64.lt_iff.mp hI
  have hn : I.neg.place? = some (-i) := by rw [place?_neg, hi]; rfl
  have hzero : z = 0 := (Option.some.inj hz).symm
  exact ⟨Binary64.le_iff.mpr ⟨-i, z, hn, hz, by omega⟩, hI,
    Binary64.lt_iff.mpr ⟨-i, i, hn, hi, by omega⟩, Binary64.le_iff.mpr ⟨i, i, hi, hi, by omega⟩,
    Binary64.le_iff.mpr ⟨z, i, hz, hi, by omega⟩⟩

/-- **Bounds that pass their checks make a box**, when what lies beyond infinity is moved to it. -/
theorem isBox_clamped {I lo hi : Binary64} (hI : Binary64.zero.lt I = true)
    (hlo : lo.isNaN = false) (hhi : hi.isNaN = false) (hlower : ¬ I.le lo = true)
    (hupper : ¬ hi.le I.neg = true) (hordered : ¬ hi.lt lo = true) :
    IsBox I (lo.maximum I.neg) (hi.minimum I) := by
  obtain ⟨z, i, hz, hi', hlt⟩ := Binary64.lt_iff.mp hI
  obtain ⟨a, ha⟩ := Binary64.exists_place?_of_not_isNaN hlo
  obtain ⟨b, hb⟩ := Binary64.exists_place?_of_not_isNaN hhi
  have hn : I.neg.place? = some (-i) := by rw [place?_neg, hi']; rfl
  have hzero : z = 0 := (Option.some.inj hz).symm
  have hai : a < i := Int.not_le.mp fun h => hlower (Binary64.le_iff.mpr ⟨i, a, hi', ha, h⟩)
  have hib : -i < b := Int.not_le.mp fun h => hupper (Binary64.le_iff.mpr ⟨b, -i, hb, hn, h⟩)
  have hab : a ≤ b := Int.not_lt.mp fun h => hordered (Binary64.lt_iff.mpr ⟨b, a, hb, ha, h⟩)
  have hmax := place?_maximum ha hn
  have hmin := place?_minimum hb hi'
  exact ⟨Binary64.le_iff.mpr ⟨_, _, hn, hmax, by omega⟩, Binary64.lt_iff.mpr ⟨_, _, hmax, hi', by omega⟩,
    Binary64.lt_iff.mpr ⟨_, _, hn, hmin, by omega⟩, Binary64.le_iff.mpr ⟨_, _, hmin, hi', by omega⟩,
    Binary64.le_iff.mpr ⟨_, _, hmax, hmin, by omega⟩⟩

/-! ## The invariant -/

namespace Model

/-- **The invariant of models.** Bounds are boxes if the model's infinity is positive. -/
structure WellFormed (m : Model) : Prop where
  columns_lt : m.columns < entryLimit
  lower_length : m.lower.length = m.columns
  upper_length : m.upper.length = m.columns
  objective_length : m.objective.length = m.columns
  integer_length : m.integer.length = m.columns
  boxes : Binary64.zero.lt m.infinity = true → ∀ b ∈ m.lower.zip m.upper, IsBox m.infinity b.1 b.2
  objective_finite : ∀ x ∈ m.objective, x.isFinite = true
  start_finite : ∀ start, m.start = some start →
    start.length = m.columns ∧ ∀ x ∈ start, x.isFinite = true
  rows_fit : ∀ r ∈ m.rows, r.Fits m.columns

/-- A blank model is well-formed, unless it is too wide for any array. -/
theorem wellFormed_blank {columns rowsHint : Nat} {infinity : Binary64} (h : columns < entryLimit) :
    (blank columns rowsHint infinity).WellFormed where
  columns_lt := h
  lower_length := List.length_replicate
  upper_length := List.length_replicate
  objective_length := List.length_replicate
  integer_length := List.length_replicate
  boxes := by
    intro hI b hb
    have hlo := List.eq_of_mem_replicate (List.of_mem_zip hb).1
    have hhi := List.eq_of_mem_replicate (List.of_mem_zip hb).2
    rw [hlo, hhi]
    exact isBox_blank hI
  objective_finite := by
    intro x hx
    rw [List.eq_of_mem_replicate hx]
    rfl
  start_finite := by
    intro start hstart
    cases hstart
  rows_fit := by
    intro r hr
    cases hr

/-- **Every model begins well-formed.** -/
theorem wellFormed_create {columns rowsHint infinity : Arg} {m : Model}
    (h : create columns rowsHint infinity = .ok m) : m.WellFormed := by
  obtain ⟨n, hint, I, -, -, hlt, rfl⟩ := create_eq_ok h
  exact wellFormed_blank hlt

variable {m m' : Model}

/-! ## Columns -/

theorem WellFormed.setObjective (hm : m.WellFormed) {coeffs : Arg}
    (h : m.setObjective coeffs = .ok m') : m'.WellFormed := by
  obtain ⟨-, xs, hread, hfinite, rfl⟩ := setObjective_eq_ok_iff.mp h
  exact { hm with
    objective_length := Int.ofNat.inj (length_of_numberVector hread)
    objective_finite := hfinite }

theorem WellFormed.setColumnBounds (hm : m.WellFormed) {lower upper : Arg}
    (h : m.setColumnBounds lower upper = .ok m') : m'.WellFormed := by
  obtain ⟨-, los, his, hlos, hhis, hlower, hupper, hordered, rfl⟩ := setColumnBounds_eq_ok_iff.mp h
  exact { hm with
    lower_length := by
      rw [List.length_map]
      exact Int.ofNat.inj (length_of_numberVector hlos)
    upper_length := by
      rw [List.length_map]
      exact Int.ofNat.inj (length_of_numberVector hhis)
    boxes := by
      intro hI b hb
      rw [List.zip_map] at hb
      obtain ⟨c, hc, rfl⟩ := List.mem_map.mp hb
      obtain ⟨hlo, hhi⟩ := List.of_mem_zip hc
      exact isBox_clamped hI ((numberVector_ok hlos).2 _ hlo) ((numberVector_ok hhis).2 _ hhi)
        (hlower _ hlo) (hupper _ hhi) (hordered c hc) }

theorem WellFormed.setColumnStart (hm : m.WellFormed) {values : Arg}
    (h : m.setColumnStart values = .ok m') : m'.WellFormed := by
  obtain ⟨-, xs, hread, hfinite, rfl⟩ := setColumnStart_eq_ok_iff.mp h
  refine { hm with start_finite := fun s hs => ?_ }
  cases hs
  exact ⟨Int.ofNat.inj (length_of_numberVector hread), hfinite⟩

theorem WellFormed.setColumnInteger (hm : m.WellFormed) {flags : Arg}
    (h : m.setColumnInteger flags = .ok m') : m'.WellFormed := by
  obtain ⟨-, bs, hread, rfl⟩ := setColumnInteger_eq_ok_iff.mp h
  exact { hm with integer_length := length_of_flagVector hread }

theorem WellFormed.freeze (hm : m.WellFormed) : m.freeze.WellFormed := { hm with }

/-! ## Rows -/

/-- **Rows that fit may be added.** -/
theorem WellFormed.appendAll (hm : m.WellFormed) {rows : List BoundedRow}
    (h : ∀ r ∈ rows, r.Fits m.columns) : (m.appendAll rows).WellFormed :=
  { hm with rows_fit := List.forall_mem_append.mpr ⟨hm.rows_fit, h⟩ }

theorem WellFormed.append (hm : m.WellFormed) {r : Row} {lo hi : Binary64} (hr : r.Fits m.columns)
    (hrange : IsRange lo hi) : (m.append r lo hi).WellFormed := by
  have hrow : ∀ s ∈ [(⟨r, lo, hi⟩ : BoundedRow)], s.Fits m.columns := by
    intro s hs
    rw [List.mem_singleton.mp hs]
    exact ⟨hr, hrange⟩
  exact hm.appendAll hrow

/-- A width fits into positions. -/
theorem WellFormed.columns_le (hm : m.WellFormed) : m.columns ≤ Int64.maxValue.toInt := by
  have hlt := hm.columns_lt
  have hlimit : entryLimit = 1152921504606846976 := rfl
  have hmax : Int64.maxValue.toInt = 9223372036854775807 := rfl
  omega

theorem WellFormed.addDenseRow (hm : m.WellFormed) {coeffs lo hi : Arg}
    (h : m.addDenseRow coeffs lo hi = .ok m') : m'.WellFormed := by
  obtain ⟨-, xs, l, u, hread, hfinite, hbounds, rfl⟩ := addDenseRow_eq_ok_iff.mp h
  have hlength : xs.length = m.columns := Int.ofNat.inj (length_of_numberVector hread)
  have hfits := fits_ofDense (by rw [hlength]; exact hm.columns_le) hfinite
  rw [hlength] at hfits
  exact hm.append hfits (rowBounds_eq_ok_iff.mp hbounds).2.2

theorem WellFormed.addSparseRow (hm : m.WellFormed) {coeffs indices lo hi : Arg}
    (h : m.addSparseRow coeffs indices lo hi = .ok m') : m'.WellFormed := by
  obtain ⟨r, l, u, -, hfits, hbounds, rfl⟩ := addSparseRow_eq_ok_iff.mp h
  exact hm.append hfits (rowBounds_eq_ok_iff.mp hbounds).2.2

theorem WellFormed.addRows (hm : m.WellFormed) {rowCount starts indices coeffs lower upper : Arg}
    (h : m.addRows rowCount starts indices coeffs lower upper = .ok m') : m'.WellFormed := by
  obtain ⟨-, n, b, -, -, -, -, hfits, rfl⟩ := addRows_eq_ok_iff.mp h
  exact hm.appendAll hfits

/-- **A row that comes through the cache fits**: if the cache had it, its largest index is checked again. -/
theorem WellFormed.addCachedRow (hm : m.WellFormed) {cache cache' : RowCache} (hcache : cache.Sound)
    {coeffs indices lo hi : Arg} {result : Except Error (Model × Bool)}
    (h : m.addCachedRow cache coeffs indices lo hi = (cache', result)) :
    cache'.Sound ∧ ∀ m' hit, result = .ok (m', hit) → m'.WellFormed := by
  cases hread : m.readCachedRow coeffs indices lo hi with
  | error e =>
    rw [addCachedRow_of_error hread] at h
    cases h
    exact ⟨hcache, fun m' hit hok => by cases hok⟩
  | ok given =>
    obtain ⟨r, l, u⟩ := given
    obtain ⟨-, -, hbounds⟩ := readCachedRow_eq_ok_iff.mp hread
    have hrange := (rowBounds_eq_ok_iff.mp hbounds).2.2
    have haddition := cachedAddition cache hread
    rw [h] at haddition
    cases haddition with
    | shared s hfind hwide =>
      refine ⟨hcache.countHit, ?_⟩
      intro m' hit hok
      cases hok
      -- the row was checked for another width
      obtain ⟨k, hfits⟩ := hcache s (RowCache.mem_rows_of_lookup hfind)
      exact hm.append (hfits.of_maxIndex_lt hwide) hrange
    | tooWide s hfind hnarrow => exact ⟨hcache.countHit, fun m' hit hok => by cases hok⟩
    | refused e hnew hcheck => exact ⟨hcache, fun m' hit hok => by cases hok⟩
    | stored hkey hnew hfits =>
      refine ⟨hcache.withRow _ hfits, ?_⟩
      intro m' hit hok
      cases hok
      exact hm.append hfits hrange

/-! ## Edits -/

/-- **Every edit keeps models well-formed**, and the row cache sound, whether it is accepted or refused. -/
theorem WellFormed.apply (hm : m.WellFormed) {cache cache' : RowCache} (hcache : cache.Sound) (e : Edit)
    {result : Except Error (Model × Option Bool)} (h : e.apply m cache = (cache', result)) :
    cache'.Sound ∧ ∀ m' hit, result = .ok (m', hit) → m'.WellFormed := by
  -- seven of the eight edits do not touch the cache
  have plain : ∀ {step : Except Error Model}, (∀ m', step = .ok m' → m'.WellFormed) →
      (cache, step.map (·, (none : Option Bool))) = (cache', result) →
      cache'.Sound ∧ ∀ m' hit, result = .ok (m', hit) → m'.WellFormed := by
    intro step hstep heq
    cases heq
    exact ⟨hcache, fun m' hit hok => hstep m' (map_pair_eq_ok_iff.mp hok).1⟩
  cases e with
  | objective coeffs => exact plain (fun m' => hm.setObjective) (Edit.apply_objective m cache coeffs ▸ h)
  | columnBounds lower upper =>
    exact plain (fun m' => hm.setColumnBounds) (Edit.apply_columnBounds m cache lower upper ▸ h)
  | columnStart values => exact plain (fun m' => hm.setColumnStart) (Edit.apply_columnStart m cache values ▸ h)
  | columnInteger flags => exact plain (fun m' => hm.setColumnInteger) (Edit.apply_columnInteger m cache flags ▸ h)
  | denseRow coeffs lo hi => exact plain (fun m' => hm.addDenseRow) (Edit.apply_denseRow m cache coeffs lo hi ▸ h)
  | sparseRow coeffs indices lo hi =>
    exact plain (fun m' => hm.addSparseRow) (Edit.apply_sparseRow m cache coeffs indices lo hi ▸ h)
  | rows rowCount starts indices coeffs lower upper =>
    exact plain (fun m' => hm.addRows) (Edit.apply_rows m cache rowCount starts indices coeffs lower upper ▸ h)
  | cachedRow coeffs indices lo hi =>
    cases hcall : m.addCachedRow cache coeffs indices lo hi with
    | mk cache₁ answer =>
      obtain ⟨hsound, hanswer⟩ := hm.addCachedRow hcache hcall
      rw [Edit.apply_cachedRow, hcall] at h
      cases h
      refine ⟨hsound, fun m' hit hok => ?_⟩
      obtain ⟨⟨m₁, hit₁⟩, hm₁, hpair⟩ := map_eq_ok_iff.mp hok
      cases hpair
      exact hanswer _ _ hm₁

end Model

end Milp
