import Milp.Proofs.Session.Modes
import Milp.Proofs.Solve.Sentinel

/-!
# Sides of rows that count as infinite

A linear program has no constraint for a side of a row that counts as infinite, whichever of the two infinities it
counts as. That is right for a lower bound at minus infinity or beyond, and for an upper one at plus infinity or
beyond. The bounds of columns are refused on the wrong side of infinity; those of rows only at the infinities of the
format. So a row that asks for an infinite value may be dropped where infinity is a finite number.

* `BoundedRow.HasRoom` — what the bounds of columns have to satisfy, for a row.
* `Model.DropsLower` and `DropsUpper` — sides without a constraint: `dropsLower_iff` and `dropsUpper_iff`.
* `Model.DropsOpenSides` — only sides that are open in truth are dropped: `dropsOpenSides_iff`.
* `BoundedRow.apply_editBy` — all four ways to add a row take it as it is, whatever counts as infinite.
* `rows_have_room_iff` — all of it, for reachable models.
-/

namespace Milp

/-! ## Infinite numbers -/

theorem Binary64.place?_abs (x : Binary64) : x.abs.place? = x.place?.map fun a => |a| := by
  have hpos := sizeLimit_pos
  cases x with
  | nan => rfl
  | infinite s => cases s <;> simp [abs, place?]
  | finite s m => cases s <;> simp [abs, place?]

namespace Model

variable {m : Model} {r : BoundedRow} {I x : Binary64}

/-- **What counts as infinite** lies at minus infinity or beyond, or at plus infinity or beyond. -/
theorem isInfinite_iff : m.isInfinite x = true ↔ x.le m.infinity.neg = true ∨ m.infinity.le x = true := by
  simp only [isInfinite, Binary64.le_iff, Binary64.place?_abs, Binary64.place?_neg]
  cases m.infinity.place? with
  | none => simp
  | some i =>
    cases x.place? with
    | none => simp
    | some a =>
      simp only [Option.map_some, Option.some.injEq, exists_and_left, exists_eq_left', le_abs]
      omega

/-- A number below plus infinity counts as infinite only at minus infinity or beyond. -/
theorem lt_infinity_iff (hI : Binary64.zero.lt m.infinity = true) (hx : x.isNaN = false) :
    x.lt m.infinity = true ↔ (m.isInfinite x = true → x.le m.infinity.neg = true) := by
  obtain ⟨z, i, hz, hi, hpos⟩ := Binary64.lt_iff.mp hI
  obtain ⟨a, ha⟩ := Binary64.exists_place?_of_not_isNaN hx
  cases hz
  simp only [isInfinite_iff, Binary64.lt_iff, Binary64.le_iff, Binary64.place?_neg, hi, ha, Option.map_some,
    Option.some.injEq, exists_and_left, exists_eq_left']
  omega

/-- A number above minus infinity counts as infinite only at plus infinity or beyond. -/
theorem neg_infinity_lt_iff (hI : Binary64.zero.lt m.infinity = true) (hx : x.isNaN = false) :
    m.infinity.neg.lt x = true ↔ (m.isInfinite x = true → m.infinity.le x = true) := by
  obtain ⟨z, i, hz, hi, hpos⟩ := Binary64.lt_iff.mp hI
  obtain ⟨a, ha⟩ := Binary64.exists_place?_of_not_isNaN hx
  cases hz
  simp only [isInfinite_iff, Binary64.lt_iff, Binary64.le_iff, Binary64.place?_neg, hi, ha, Option.map_some,
    Option.some.injEq, exists_and_left, exists_eq_left']
  omega

end Model

/-! ## Rows and infinity -/

namespace BoundedRow

/-- **A row leaves room**, as the bounds of a column do: the lower bound lies below infinity, and the upper one above
minus infinity. -/
structure HasRoom (I : Binary64) (r : BoundedRow) : Prop where
  lower : r.lo.lt I = true
  upper : I.neg.lt r.hi = true

variable {r : BoundedRow} {I : Binary64}

/-- Every row leaves room within the infinities of the format. -/
theorem hasRoom_infinity (h : IsRange r.lo r.hi) : r.HasRoom Binary64.infinity where
  lower := by
    by_contra hlt
    exact h.not_infinity_le ((Binary64.not_lt_iff h.lo_number rfl).mp hlt)
  upper := by
    by_contra hlt
    exact h.not_le_negInfinity ((Binary64.not_lt_iff rfl h.hi_number).mp hlt)

end BoundedRow

namespace Model

variable {m : Model} {r : BoundedRow} {I : Binary64}

/-- **The lower side of a row is dropped**: the row has nonzeros, and all of its constraints, if there are any, only
keep it down. -/
def DropsLower (m : Model) (r : BoundedRow) : Prop :=
  nonzeroTerms r.row ≠ [] ∧ ∀ position, ∀ c ∈ m.rowConstraints position r, c.sense = .atMost

/-- The upper side of a row is dropped. -/
def DropsUpper (m : Model) (r : BoundedRow) : Prop :=
  nonzeroTerms r.row ≠ [] ∧ ∀ position, ∀ c ∈ m.rowConstraints position r, c.sense = .atLeast

/-- **A row loses only sides that are open**: a lower bound at minus infinity or beyond, and an upper one at plus
infinity or beyond. -/
structure DropsOpenSides (m : Model) (r : BoundedRow) : Prop where
  lower : m.DropsLower r → r.lo.le m.infinity.neg = true
  upper : m.DropsUpper r → m.infinity.le r.hi = true

/-- **Which constraints a row with nonzeros has.** -/
theorem forall_rowConstraints_iff (hterms : nonzeroTerms r.row ≠ []) (P : Sense → Prop) (position : ℕ) :
    (∀ c ∈ m.rowConstraints position r, P c.sense) ↔
      if r.lo.same r.hi = true then P .equal
      else (m.isInfinite r.lo = false → P .atLeast) ∧ (m.isInfinite r.hi = false → P .atMost) := by
  have hterms : ¬ (nonzeroTerms r.row).isEmpty = true := by simpa using hterms
  simp only [rowConstraints]
  rw [if_neg hterms]
  by_cases hsame : r.lo.same r.hi = true
  · simp [hsame]
  · rw [if_neg hsame, if_neg hsame, List.forall_mem_append]
    refine and_congr ?_ ?_
    · cases m.isInfinite r.lo <;> simp
    · cases m.isInfinite r.hi <;> simp

theorem dropsLower_iff :
    m.DropsLower r ↔ nonzeroTerms r.row ≠ [] ∧ ¬ r.lo.same r.hi = true ∧ m.isInfinite r.lo = true := by
  refine and_congr_right fun hterms => ?_
  simp only [forall_rowConstraints_iff hterms (· = Sense.atMost)]
  split <;> simp_all

theorem dropsUpper_iff :
    m.DropsUpper r ↔ nonzeroTerms r.row ≠ [] ∧ ¬ r.lo.same r.hi = true ∧ m.isInfinite r.hi = true := by
  refine and_congr_right fun hterms => ?_
  simp only [forall_rowConstraints_iff hterms (· = Sense.atLeast)]
  split <;> simp_all

/-- **When a row loses only open sides**: it has no nonzeros, or equal bounds, or it leaves room. -/
theorem dropsOpenSides_iff (hI : Binary64.zero.lt m.infinity = true) (hr : IsRange r.lo r.hi) :
    m.DropsOpenSides r ↔
      nonzeroTerms r.row = [] ∨ r.lo.same r.hi = true ∨ r.HasRoom m.infinity := by
  have hroom : r.HasRoom m.infinity ↔
      (m.isInfinite r.lo = true → r.lo.le m.infinity.neg = true) ∧
        (m.isInfinite r.hi = true → m.infinity.le r.hi = true) := by
    rw [← lt_infinity_iff hI hr.lo_number, ← neg_infinity_lt_iff hI hr.hi_number]
    exact ⟨fun h => ⟨h.lower, h.upper⟩, fun h => ⟨h.1, h.2⟩⟩
  have hdrops : m.DropsOpenSides r ↔
      (m.DropsLower r → r.lo.le m.infinity.neg = true) ∧ (m.DropsUpper r → m.infinity.le r.hi = true) :=
    ⟨fun h => ⟨h.lower, h.upper⟩, fun h => ⟨h.1, h.2⟩⟩
  rw [hdrops, hroom, dropsLower_iff, dropsUpper_iff]
  -- a row without nonzeros and a row with equal bounds drop no side
  by_cases hterms : nonzeroTerms r.row = []
  · simp [hterms]
  · by_cases hsame : r.lo.same r.hi = true
    · simp [hsame]
    · simp [hterms, hsame]

end Model

/-! ## Four ways to add a row -/

/-- A row has no more entries than there are columns. -/
theorem Row.Fits.size_le {n : ℕ} {r : Row} (hr : r.Fits n) : r.size ≤ n := by
  have hcolumns : (r.terms.map fun t => t.1.toInt.toNat) ⊆ List.range n := by
    intro k hk
    obtain ⟨t, ht, rfl⟩ := List.mem_map.mp hk
    exact List.mem_range.mpr (hr.position_lt ht)
  have hle := (hr.nodup_positions.subperm hcolumns).length_le
  rwa [List.length_map, List.length_range, Row.terms, List.length_zip, ← hr.lengths, min_self] at hle

namespace BoundedRow

variable {m : Model} {r : BoundedRow}

/-- The edit that adds one row in a mode, also as a batch of its own. -/
def editBy (n : ℕ) (mode : Mode) (r : BoundedRow) : Edit :=
  match mode with
  | .batch => (Model.Batch.ofRows [r]).edit 1
  | mode => r.editIn n mode

/-- **All four ways to add a row take it as it is**, if it has a range. What counts as infinite makes no
difference. -/
theorem apply_editBy (hopen : m.frozen = false) (hn : (m.columns : Int) ≤ Int64.maxValue.toInt)
    (hr : r.row.Canonical m.columns) (hrange : IsRange r.lo r.hi) (mode : Mode) (cache : RowCache) :
    ∃ cache' hit, (r.editBy m.columns mode).apply m cache = (cache', .ok (m.appendAll [r], hit)) := by
  have hsingle (mode : Mode) (hmode : mode ≠ .batch) :
      ∃ cache' hit, (r.editIn m.columns mode).apply m cache = (cache', .ok (m.appendAll [r], hit)) :=
    apply_editIn hopen hn hr hrange hmode cache
  cases mode with
  | dense => exact hsingle .dense nofun
  | sparse => exact hsingle .sparse nofun
  | cached => exact hsingle .cached nofun
  | batch =>
    have hfits : ∀ s ∈ [r], s.Fits m.columns := List.forall_mem_singleton.mpr ⟨hr.fits, hrange⟩
    have hsize : Model.entryCount [r] ≤ Int64.maxValue.toInt := by
      have hle := hr.fits.size_le
      rw [Model.entryCount_cons, Model.entryCount, List.flatMap_nil, List.length_nil]
      omega
    exact ⟨cache, none, Model.Batch.apply_ofRows hopen hfits hsize cache⟩

end BoundedRow

/-! ## Reachable models -/

namespace Model

variable {I : Binary64}

/-- **A row that asks for infinity**: a single column, from infinity upwards. -/
def rowAtInfinity (I : Binary64) : BoundedRow := ⟨.ofArrays [0] [Binary64.one], I, Binary64.infinity⟩

theorem canonical_rowAtInfinity (I : Binary64) : (rowAtInfinity I).row.Canonical 1 :=
  show Row.Canonical 1 (.ofArrays [0] [Binary64.one]) by decide +kernel

theorem nonzeroTerms_rowAtInfinity (I : Binary64) : nonzeroTerms (rowAtInfinity I).row ≠ [] :=
  show nonzeroTerms (.ofArrays [0] [Binary64.one]) ≠ [] by decide +kernel

/-- Where infinity is finite, a row may ask for it. -/
theorem isRange_rowAtInfinity (hI : I.isFinite = true) : IsRange (rowAtInfinity I).lo (rowAtInfinity I).hi where
  inOrder := Binary64.le_iff.mpr ⟨_, _, Binary64.place?_of_isFinite hI, rfl, (Binary64.units_lt_sizeLimit hI).2.le⟩
  lo_ne := Binary64.ne_infinity_of_isFinite hI
  hi_ne := nofun

/-- **Which rows a linear program may lose.** Every row of a reachable model leaves room within infinity, as the
bounds of columns do, if and only if infinity is that of the format; and only then do rows never lose a side that is
not open. A row loses only open sides if it has no nonzeros or equal bounds, or if it leaves room. Whatever counts as
infinite, all four ways to add a row take every row with a range as it is. -/
theorem rows_have_room_iff (hI : Binary64.zero.lt I = true) :
    ((∀ m : Model, m.Reachable → m.infinity = I → ∀ r ∈ m.rows, r.HasRoom I) ↔ I = Binary64.infinity) ∧
      ((∀ m : Model, m.Reachable → m.infinity = I → ∀ r ∈ m.rows, m.DropsOpenSides r) ↔
        I = Binary64.infinity) ∧
      (∀ m : Model, m.Reachable → m.infinity = I → ∀ r ∈ m.rows,
        (m.DropsOpenSides r ↔ nonzeroTerms r.row = [] ∨ r.lo.same r.hi = true ∨ r.HasRoom I)) ∧
      ∀ m : Model, m.Reachable → m.infinity = I → m.frozen = false → ∀ r : BoundedRow,
        r.row.Canonical m.columns → IsRange r.lo r.hi → ∀ mode cache, ∃ cache' hit,
          (r.editBy m.columns mode).apply m cache = (cache', .ok (m.appendAll [r], hit)) := by
  have hrange : ∀ m : Model, m.Reachable → ∀ r ∈ m.rows, IsRange r.lo r.hi :=
    fun m hm r hr => (hm.wellFormed.rows_fit r hr).range
  have hopen : ∀ m : Model, m.Reachable → m.infinity = I → ∀ r ∈ m.rows,
      (m.DropsOpenSides r ↔ nonzeroTerms r.row = [] ∨ r.lo.same r.hi = true ∨ r.HasRoom I) := by
    rintro m hm rfl r hr
    exact dropsOpenSides_iff hI (hrange m hm r hr)
  have hroom : I = Binary64.infinity →
      ∀ m : Model, m.Reachable → m.infinity = I → ∀ r ∈ m.rows, r.HasRoom I := by
    rintro rfl m hm - r hr
    exact BoundedRow.hasRoom_infinity (hrange m hm r hr)
  -- where infinity is finite, there is a model with a row that asks for it
  have hlost : I ≠ Binary64.infinity → ∃ m : Model, m.Reachable ∧ m.infinity = I ∧ ∃ r ∈ m.rows,
      ¬ r.HasRoom I ∧ ¬ m.DropsOpenSides r := by
    intro hne
    have hfinite := (Binary64.finite_or_eq_infinity_of_pos hI).resolve_right hne
    have hfits : (rowAtInfinity I).Fits 1 := 
      ⟨(canonical_rowAtInfinity I).fits, isRange_rowAtInfinity hfinite⟩
    have hm : ((blank 1 0 I).appendAll [rowAtInfinity I]).Reachable :=
      reachable_appendAll (by decide) I (List.forall_mem_singleton.mpr hfits)
    have hlow : ¬ (rowAtInfinity I).HasRoom I := fun h => Binary64.not_lt_self I h.lower
    refine ⟨_, hm, rfl, rowAtInfinity I, List.mem_singleton_self _, hlow, ?_⟩
    rw [hopen _ hm rfl _ (List.mem_singleton_self _)]
    rintro (hterms | hsame | h)
    · exact nonzeroTerms_rowAtInfinity I hterms
    · rw [rowAtInfinity, Binary64.same_infinity_iff] at hsame
      exact hne hsame
    · exact hlow h
  refine ⟨⟨fun h => ?_, hroom⟩, ⟨fun h => ?_, fun hI' m hm hmI r hr => ?_⟩, hopen, ?_⟩
  · by_contra hne
    obtain ⟨m, hm, hmI, r, hr, hlow, -⟩ := hlost hne
    exact hlow (h m hm hmI r hr)
  · by_contra hne
    obtain ⟨m, hm, hmI, r, hr, -, hdrops⟩ := hlost hne
    exact hdrops (h m hm hmI r hr)
  · exact (hopen m hm hmI r hr).mpr (.inr (.inr (hroom hI' m hm hmI r hr)))
  · intro m hm _ hfrozen r hr hrange mode cache
    exact BoundedRow.apply_editBy hfrozen hm.wellFormed.columns_le hr hrange mode cache

/-- One row of one column that is unbounded from below, where infinity is that of the format: the row leaves room, and
its lower side is dropped because it is open. -/
theorem rows_have_room_of_infinite :
    let r : BoundedRow := ⟨.ofArrays [0] [Binary64.one], Binary64.negInfinity, Binary64.one⟩
    let m := (blank 1 0 Binary64.infinity).appendAll [r]
    Binary64.zero.lt Binary64.infinity = true ∧ m.Reachable ∧ r.HasRoom Binary64.infinity ∧ m.DropsOpenSides r ∧
      m.DropsLower r ∧ r.lo.le m.infinity.neg = true := by
  intro r m
  have hm : m.Reachable :=
    reachable_appendAll (by decide) _ (List.forall_mem_singleton.mpr (by decide +kernel))
  obtain ⟨hroom, hdrops, -⟩ := rows_have_room_iff zero_lt_infinity
  have hopen := hdrops.mpr rfl m hm rfl r (List.mem_singleton_self _)
  have hlower : m.DropsLower r := dropsLower_iff.mpr (by decide +kernel)
  exact ⟨zero_lt_infinity, hm, hroom.mpr rfl m hm rfl r (List.mem_singleton_self _), hopen, hlower,
    hopen.lower hlower⟩

/-- **A row that asks for a finite infinity is lost.** One column, where 100 counts as infinite, and a row that asks
for at least 100: it is taken in all four ways, and the linear program has no constraint for it. -/
theorem row_at_finite_infinity_lost :
    let I := Binary64.ofInt 100
    let m := blank 1 0 I
    let r := rowAtInfinity I
    let m' := m.appendAll [r]
    Binary64.zero.lt I = true ∧ m'.Reachable ∧ m'.infinity = I ∧
      (∀ mode, ((r.editBy 1 mode).apply m (RowCache.empty .digest)).2.map Prod.fst = .ok m') ∧
      m'.program.constraints = [] ∧ ¬ r.HasRoom I ∧ m'.DropsLower r ∧ r.lo.le I.neg = false := by
  intro I m r m'
  have hI : I.isFinite = true := by decide +kernel
  have hr : r.row.Canonical 1 := canonical_rowAtInfinity I
  have hrange : IsRange r.lo r.hi := isRange_rowAtInfinity hI
  refine ⟨by decide +kernel, ?_, rfl, ?_, ?_, ?_, dropsLower_iff.mpr ?_, ?_⟩
  · exact reachable_appendAll (by decide) I (List.forall_mem_singleton.mpr ⟨hr.fits, hrange⟩)
  · intro mode
    obtain ⟨cache', hit, happly⟩ := BoundedRow.apply_editBy (m := m) rfl (by decide) hr hrange mode
      (RowCache.empty .digest)
    rw [show r.editBy 1 mode = r.editBy m.columns mode from rfl, happly]
    rfl
  · decide +kernel
  · exact fun h => Binary64.not_lt_self I h.lower
  · decide +kernel
  · decide +kernel

end Model

end Milp
