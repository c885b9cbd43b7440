import Milp.Proofs.Instance.Parameters
import Milp.Proofs.Program.Feasible
import Milp.Proofs.Session.Modes

/-!
# Selection problems are feasible, and loaded in every way

Whatever a source draws, if it keeps to what it is asked for, the instance for parameters is a selection problem. Zero
satisfies all of it, and that is also why every new session of its width takes it: bounds that are moved within the
infinity of a session stay on their side of zero, so columns stay boxes and rows keep their ranges.

* `Instance.Feasible` — the points that an instance allows: `IsSelection.feasible_zero`.
* `Session.Loads` — an instance is loaded in a mode: `loads_selection`, for every session that is being built.
* `Parameters.InRange` — parameters that are accepted.
* `Instance.generateFrom_isSelection` — what is generated is a selection problem, feasible and loaded.
-/

namespace Milp

/-! ## The zero point -/

/-- **The points that an instance allows**: within the bounds, integers where they are asked for, and on every row. -/
structure Instance.Feasible (p : Instance) (x : Point) : Prop where
  lower : List.Forall₂ Binary64.IsBelow p.lower x
  upper : List.Forall₂ Binary64.IsAbove p.upper.entries x
  integer : List.Forall₂ (fun (b : Bool) (q : ℚ) => b = true → ∃ k : ℤ, q = k) p.integer.entries x
  rows : ∀ r ∈ p.rows, r.Holds x

/-- A number that is not negative leaves zero below it. -/
theorem Binary64.isAbove_zero_of_le {x : Binary64} (h : Binary64.zero.le x = true) : x.IsAbove 0 := by
  have hrange := isRange_of_zero zero_le_zero h
  rw [isAbove_zero_iff (not_isNaN_of_le h).2 hrange.hi_ne]
  exact (not_lt_iff (not_isNaN_of_le h).2 rfl).mpr h

theorem Binary64.isBelow_zero : Binary64.zero.IsBelow 0 := by
  rw [isBelow_zero_iff rfl (by decide)]
  exact (not_lt_iff rfl rfl).mpr zero_le_zero

/-- What each entry has to do with one value, all entries have to do with copies of it. -/
theorem forall₂_replicate {α β : Type} {R : α → β → Prop} {xs : List α} {c : β} {n : ℕ} (hlength : xs.length = n)
    (h : ∀ a ∈ xs, R a c) : List.Forall₂ R xs (List.replicate n c) := by
  rw [← hlength, ← List.map_const', List.forall₂_map_right_iff, List.forall₂_same]
  exact h

/-- At the zero point every row has the value zero. -/
theorem Row.value_zero (r : Row) (n : ℕ) : r.value (List.replicate n 0) = 0 := by
  refine List.sum_eq_zero fun q hq => ?_
  obtain ⟨t, -, rfl⟩ := List.mem_map.mp hq
  have hget : (List.replicate n (0 : ℚ)).getD t.1 0 = 0 := by
    rw [List.getD_eq_getElem?_getD, List.getElem?_replicate]
    split <;> rfl
  rw [hget, mul_zero]

section Selections

variable {n rows patterns k : ℕ} {p : Instance}

/-- A pattern has no zeros. -/
theorem Row.IsDrawn.canonical {r : Row} (h : r.IsDrawn n k) : r.Canonical n := by
  refine ⟨h.fits, h.increasing, fun c hc => ?_⟩
  by_contra hsame
  obtain ⟨a, hplace, hzero⟩ := Binary64.same_iff.mp (Bool.not_eq_false _ ▸ hsame)
  obtain ⟨z, b, hz, hb, hlt⟩ := Binary64.lt_iff.mp ((h.coeffs c hc).zero_lt Int.one_pos)
  cases hz.symm.trans hzero
  cases hb.symm.trans hplace
  exact lt_irrefl _ hlt

/-- **Zero satisfies a selection problem**: its bounds, its flags and its rows. -/
theorem Instance.IsSelection.feasible_zero (h : p.IsSelection n rows patterns k) :
    p.Feasible (List.replicate n 0) := by
  obtain ⟨us, hus, huslength, hbetween⟩ := h.upper
  obtain ⟨bs, hbs, hbslength⟩ := h.integer
  refine ⟨?_, ?_, ?_, ?_⟩
  · rw [h.lower]
    refine forall₂_replicate List.length_replicate fun x hx => ?_
    rw [List.eq_of_mem_replicate hx]
    exact Binary64.isBelow_zero
  · rw [hus]
    exact forall₂_replicate huslength fun u hu =>
      Binary64.isAbove_zero_of_le ((hbetween u hu).zero_le Int.one_pos)
  · rw [hbs]
    exact forall₂_replicate hbslength fun b _ _ => ⟨0, Int.cast_zero.symm⟩
  · intro r hr
    have hbudget := h.rows r hr
    rw [BoundedRow.Holds, Row.value_zero, hbudget.lo]
    exact ⟨Binary64.isBelow_negInfinity, Binary64.isAbove_zero_of_le hbudget.hi_nonneg⟩

/-! ## Bounds around zero, within infinity -/

section Infinity

variable {I : Binary64} (hI : Binary64.zero.lt I = true)
include hI

/-- **From zero up to a bound that is moved within infinity** is a box. -/
theorem isBox_of_nonneg {u : Binary64} (hu : Binary64.zero.le u = true) : IsBox I Binary64.zero (u.minimum I) := by
  have hblank := isBox_blank hI
  have hnumber := (Binary64.not_isNaN_of_le hu).2
  have hupper : ¬ u.le I.neg = true := by
    intro hle
    obtain ⟨z, i, hz, hi, hlt⟩ := Binary64.lt_iff.mp hI
    obtain ⟨z', a, hz', ha, hza⟩ := Binary64.le_iff.mp hu
    obtain ⟨a', j, ha', hj, haj⟩ := Binary64.le_iff.mp hle
    cases hz.symm.trans hz'
    cases ha.symm.trans ha'
    have hzero : z = 0 := (Option.some.inj hz).symm
    have hneg : j = -i := by
      rw [Binary64.place?_neg, hi] at hj
      exact (Option.some.inj hj).symm
    omega
  have hbox := isBox_clamped hI rfl hnumber hblank.lower_taken.2.1 hupper ((Binary64.not_lt_iff hnumber rfl).mpr hu)
  rwa [hblank.lower_taken.2.2] at hbox

/-- **A row around zero keeps its range** when it is moved within infinity. -/
theorem BoundedRow.isRange_within {r : BoundedRow} (hlo : r.lo.le Binary64.zero = true)
    (hhi : Binary64.zero.le r.hi = true) : IsRange (r.within I).lo (r.within I).hi := by
  have hblank := isBox_blank hI
  refine isRange_of_zero ?_ ?_
  · show (if r.lo.lt I.neg then I.neg else r.lo).le Binary64.zero = true
    split
    · exact hblank.lo_ge
    · exact hlo
  · show Binary64.zero.le (if I.lt r.hi then I else r.hi) = true
    split
    · exact hblank.inOrder
    · exact hhi

end Infinity

/-! ## Loading -/

namespace Session

variable {s : Session} {m : Model} {mode : Mode}

/-- **A session loads an instance** in a mode. -/
def Loads (s : Session) (cache : RowCache) (p : Instance) (mode : Mode) : Prop :=
  ∃ s' cache' hits, s.load cache p.given (.text mode.name) = (s', cache', .ok hits)

theorem loads_of_loaded? {cache : RowCache} {s' : Session} (h : s.loaded? cache p.given mode = some s') :
    s.Loads cache p mode := by
  unfold loaded? at h
  cases hload : s.load cache p.given (.text mode.name) with
  | mk s₁ after =>
    obtain ⟨cache₁, result⟩ := after
    rw [hload] at h
    cases result with
    | error refusal => cases h
    | ok hits => exact ⟨s₁, cache₁, hits, hload⟩

/-- An edit that is taken, and others behind it. -/
theorem carried?_cons_of_apply {m' : Model} {cache cache' : RowCache} {e : Edit} {hit : Option Bool}
    {es : List (Except Error Edit)} (hs : s.stage = .building m) (h : e.apply m cache = (cache', .ok (m', hit))) :
    carried? (s.editAll cache (.ok e :: es)) =
      carried? (({ s with stage := .building m' } : Session).editAll cache' es) := by
  rw [carried?_cons_of_building hs, h]

/-- **Columns that are boxes within infinity are taken.** -/
theorem withColumns?_of_boxes (hs : s.stage = .building m) (hopen : m.frozen = false) (hI : m.infinity = s.infinity)
    (hobjective : p.objective.length = m.columns) (hfinite : ∀ x ∈ p.objective, x.isFinite = true)
    (hlower : p.lower.length = m.columns) {us : List Binary64} (hus : p.upper = .vector us)
    (hupper : us.length = m.columns) {bs : List Bool} (hbs : p.integer = .vector bs) (hinteger : bs.length = m.columns)
    (hboxes : ∀ b ∈ p.lower.zip (us.map fun x => x.minimum s.infinity), IsBox s.infinity b.1 b.2) (cache : RowCache) :
    ∃ m', s.withColumns? cache p.given = some m' := by
  have hmoved : (us.map fun x => x.minimum s.infinity).length = m.columns := (List.length_map _).trans hupper
  have hlos := (forall_mem_of_zip (P := fun x => x.maximum s.infinity.neg = x) (Q := fun _ => True)
    (hlower.trans hmoved.symm) fun b hb => ⟨(hboxes b hb).lower_taken.2.2, trivial⟩).1
  have hmoves := Instance.columnEdits_within hus hbs hlos
  generalize (us.map fun x => x.minimum s.infinity) = his at hboxes hmoved hmoves
  -- the three edits, one after the other
  let m₁ : Model := { m with objective := p.objective }
  let m₂ : Model := { m₁ with lower := p.lower, upper := his }
  let m₃ : Model := { m₂ with integer := bs }
  have hfirst : (Edit.objective (.ofFloats p.objective)).apply m cache = (cache, .ok (m₁, none)) :=
    Edit.plain_of_ok (Edit.apply_objective m cache _) (Model.setObjective_of_finite hopen hobjective hfinite)
  have hsecond : (Edit.columnBounds (.ofFloats p.lower) (.ofFloats his)).apply m₁ cache = (cache, .ok (m₂, none)) :=
    Edit.plain_of_ok (Edit.apply_columnBounds m₁ cache _ _)
      (Model.setColumnBounds_of_boxes (m := m₁) hopen hlower hmoved (hI ▸ hboxes))
  have hthird : (Edit.columnInteger (.ofFlags bs)).apply m₂ cache = (cache, .ok (m₃, none)) :=
    Edit.plain_of_ok (Edit.apply_columnInteger m₂ cache _)
      (Model.setColumnInteger_of_flags (m := m₂) hopen hinteger)
  refine ⟨m₃, ?_⟩
  unfold withColumns?
  rw [hmoves]
  show (carried? (s.editAll cache [.ok (.objective _), .ok (.columnBounds _ _), .ok (.columnInteger _)])).bind _ = _
  rw [carried?_cons_of_apply hs hfirst, carried?_cons_of_apply rfl hsecond, carried?_cons_of_apply rfl hthird]
  rfl

/-- **Selection problems are loaded** in every mode, into every session of their width that is being built and has a
positive infinity. -/
theorem loads_selection (hs : s.stage = .building m) (hopen : m.frozen = false)
    (hn : (m.columns : Int) ≤ Int64.maxValue.toInt) (hI : m.infinity = s.infinity)
    (hpos : Binary64.zero.lt s.infinity = true) (hp : p.IsSelection m.columns rows patterns k) (cache : RowCache)
    (hsize : mode = .batch → Model.entryCount p.rows ≤ Int64.maxValue.toInt) : s.Loads cache p mode := by
  obtain ⟨us, hus, huslength, hbetween⟩ := hp.upper
  obtain ⟨bs, hbs, hbslength⟩ := hp.integer
  have hboxes : ∀ b ∈ p.lower.zip (us.map fun x => x.minimum s.infinity), IsBox s.infinity b.1 b.2 := by
    intro b hb
    obtain ⟨hlo, hhi⟩ := List.of_mem_zip hb
    rw [hp.lower] at hlo
    obtain ⟨u, hu, heq⟩ := List.mem_map.mp hhi
    rw [List.eq_of_mem_replicate hlo, ← heq]
    exact isBox_of_nonneg hpos ((hbetween u hu).zero_le Int.one_pos)
  have hlower : p.lower.length = m.columns := by rw [hp.lower, List.length_replicate]
  obtain ⟨m', hcolumns⟩ := withColumns?_of_boxes hs hopen hI hp.columns (fun x hx => (hp.objective x hx).isFinite)
    hlower hus huslength hbs hbslength hboxes cache
  have hrows : ∀ r ∈ p.rows, r.row.Canonical m.columns ∧ IsRange r.lo r.hi := fun r hr =>
    ⟨(hp.rows r hr).row.canonical, (hp.rows r hr).fits.range⟩
  by_cases hmode : mode = .batch
  · subst hmode
    have hloaded := loaded?_batch hs hopen hrows cache (hsize rfl)
    rw [hcolumns] at hloaded
    exact loads_of_loaded? hloaded
  · have hranges : ∀ r ∈ p.rows.map (BoundedRow.within s.infinity), IsRange r.lo r.hi := by
      refine List.forall_mem_map.mpr fun r hr => ?_
      have hbudget := hp.rows r hr
      exact BoundedRow.isRange_within hpos (hbudget.lo ▸ negInfinity_le_zero) hbudget.hi_nonneg
    have hloaded := loaded?_single hs hopen hn hrows cache hmode
    rw [hcolumns, Option.bind_some, if_pos hranges] at hloaded
    exact loads_of_loaded? hloaded

end Session

end Selections

/-! ## What is generated -/

/-- **Parameters that are accepted**: some columns, but not more than there are exact whole numbers for, a density
above zero and at most one, any numbers of rows and patterns, and a share that is a number. -/
structure Parameters.InRange (params : Parameters) (c n k : ℤ) (d : Arg.Real) : Prop
    extends params.AreNumbers c n k d where
  columns_pos : 0 < c
  columns_le : c ≤ 2 ^ 53
  density_pos : (Arg.Real.int 0).lt d = true
  density_le : d.le (.int 1) = true
  share : ∃ t w, params.integerShare.real? = some t ∧ params.integerShare.toNumber = .ok w

/-- A share that is a number is the threshold of every column. -/
theorem Shape.readThresholds_of_number {share : Arg} {t : Arg.Real} {w : Binary64} (ht : share.real? = some t)
    (hw : share.toNumber = .ok w) (n : ℕ) :
    readThresholds n share = .ok (.vector (List.replicate n t)) := by
  cases share with
  | flag | int | float =>
    simp only [readThresholds, realOf, ht, hw]
    rfl
  | absent | text | list | record => cases ht

/-- **What is generated is valid, feasible and loaded, whatever is drawn.** Take any source that keeps to the ranges,
positions and choices that it is asked for, in any state that it begins in for the seed, and parameters that are
accepted. There is an instance, and it is a selection problem: a row for each one asked for, none if their number is
negative, over at most as many patterns as asked for, and at least one; a pattern has the density's part of the
columns, at least one and not more than there are. The zero point satisfies the instance. Every new session of its
width with a positive infinity loads it in every mode, in one batch as long as positions can count its entries. -/
theorem Instance.generateFrom_isSelection {σ : Type} {source : Random.Source σ} (hsource : source.Keeps Shape.ranges)
    {start : Arg → Except Error σ} {params : Parameters} {c n k : ℤ} {d : Arg.Real} (hparams : params.InRange c n k d)
    {first : σ} (hfirst : start params.seed = .ok first) :
    let size := Shape.patternSizeOf d c.toNat
    ∃ p, generateFrom source start params = .ok p ∧ size ≤ c.toNat ∧
      p.IsSelection c.toNat n.toNat (max 1 k.toNat) size ∧ p.Feasible (List.replicate c.toNat 0) ∧
        ∀ {backend : Backend} {timeLimit columns rowsHint : Arg} {created : Session},
          Session.create backend timeLimit columns rowsHint = .ok created → columns.int? = some c →
            Binary64.zero.lt created.infinity = true → ∀ (handle : Option ℕ) (cache : RowCache) (mode : Mode),
              (mode = .batch → ((n.toNat * size : ℕ) : ℤ) ≤ Int64.maxValue.toInt) →
                ({ created with handle := handle } : Session).Loads cache p mode := by
  intro size
  obtain ⟨t, w, ht, hw⟩ := hparams.share
  have hgenerate := generateFrom_of_numbers source hparams.toAreNumbers hparams.columns_pos hparams.columns_le
    hparams.density_pos hparams.density_le hfirst
  rw [Shape.readThresholds_of_number ht hw] at hgenerate
  have hdrawable := Shape.isDrawable_of_numbers (k := k) hparams.columns_pos hparams.columns_le hparams.density_pos
    hparams.density_le n.toNat t
  have hselection := Shape.isSelection_draw hsource hdrawable first
  refine ⟨_, hgenerate, hdrawable.patternSize_le, hselection, hselection.feasible_zero, ?_⟩
  intro backend timeLimit columns rowsHint created hcreate hcolumns hpos handle cache mode hsize
  obtain ⟨width, hint, hwidth, hlt, hstage⟩ := Session.building_of_create hcreate
  have hwidth : c.toNat = width := by
    have := Option.some.inj (hcolumns.symm.trans hwidth)
    omega
  subst hwidth
  have hentries := Model.entryCount_of_size fun r hr => (hselection.rows r hr).row.size
  rw [hselection.rows_length] at hentries
  refine Session.loads_selection (s := { created with handle := handle }) hstage rfl
    (Model.wellFormed_blank hlt).columns_le rfl hpos hselection cache ?_
  intro hbatch
  rw [hentries]
  exact hsize hbatch

/-- Half of three columns, in two rows over one pattern, since a negative number of patterns was asked for. In a
session for which two is infinite the upper bounds of columns and rows are moved, and the instance is loaded in all
modes. -/
theorem Instance.generateFrom_isSelection_of_three_columns :
    let params : Parameters := ⟨.int 3, .int 2, .int (-1), .float (Binary64.ofDecimal false 5 (-1)), .flag true, .int 7⟩
    let I := Binary64.ofInt 2
    let s : Session := ⟨none, "plain", I, none, Binary64.zero, .building (.blank 3 0 I)⟩
    Session.create ⟨"plain", .float I⟩ .absent (.int 3) (.int 0) = .ok s ∧
      ∃ p, generate params = .ok p ∧ p.IsSelection 3 2 1 2 ∧ p.Feasible [0, 0, 0] ∧
        ∀ mode, s.Loads (RowCache.empty .digest) p mode := by
  intro params I s
  have hcreate : Session.create ⟨"plain", .float I⟩ .absent (.int 3) (.int 0) = .ok s := rfl
  have hsize : Shape.patternSizeOf (.float (Binary64.ofDecimal false 5 (-1))) (3 : ℤ).toNat = 2 := by decide +kernel
  have hparams : params.InRange 3 2 (-1) (.float (Binary64.ofDecimal false 5 (-1))) :=
    ⟨⟨rfl, rfl, rfl, rfl⟩, by decide, by decide, by decide +kernel, by decide +kernel, _, _, rfl, rfl⟩
  obtain ⟨words, hwords⟩ : ∃ words, Random.seedWords (.int 7) = .ok words := ⟨_, rfl⟩
  have hfirst : Random.Congruential.start params.seed = .ok (Random.Congruential.ofSeed words) := by
    show Random.Congruential.start (.int 7) = _
    rw [Random.Congruential.start, hwords]
    rfl
  obtain ⟨p, hgenerate, -, hselection, hfeasible, hloads⟩ :=
    generateFrom_isSelection Shape.keeps_congruential hparams hfirst
  rw [hsize] at hselection
  refine ⟨hcreate, p, hgenerate, hselection, hfeasible, fun mode => ?_⟩
  refine hloads hcreate rfl (by decide +kernel) none _ mode fun _ => ?_
  rw [hsize]
  decide +kernel

end Milp
