import Milp.Proofs.Session.Loading

/-!
# The ways to load an instance

Rows that go in one by one are moved within the session's infinity first; rows in one batch are not. Apart from that
the four ways to load an instance come to the same, so they agree where there is nothing to move.

* `BoundedRow.IsWithin` — bounds that stay where they are: `within_eq_self_iff`.
* `BoundedRow.apply_editIn` — one row, in any way but the batch.
* `Session.loaded?` — what an instance makes of a session: `loaded?_single` and `loaded?_batch`.
* `Session.loaded?_agree_iff` — when all four ways agree.
-/

namespace Milp

/-! ## Bounds within infinity -/

/-- Nothing is below itself. -/
theorem Binary64.not_lt_self (x : Binary64) : ¬ x.lt x = true := by
  rw [lt_iff]
  rintro ⟨a, b, ha, hb, hab⟩
  rw [ha, Option.some.injEq] at hb
  omega

namespace BoundedRow

variable {r : BoundedRow} {I : Binary64} {n : ℕ} {m m' : Model} {mode : Mode} {cache cache' : RowCache}
  {hit : Option Bool}

/-- **The bounds of a row lie within infinity.** -/
def IsWithin (I : Binary64) (r : BoundedRow) : Prop := ¬ r.lo.lt I.neg = true ∧ ¬ I.lt r.hi = true

instance (I : Binary64) (r : BoundedRow) : Decidable (r.IsWithin I) := inferInstanceAs (Decidable (_ ∧ _))

theorem within_eq_self_iff : r.within I = r ↔ r.IsWithin I := by
  constructor
  · intro h
    have hlo : (if r.lo.lt I.neg then I.neg else r.lo) = r.lo := congrArg BoundedRow.lo h
    have hhi : (if I.lt r.hi then I else r.hi) = r.hi := congrArg BoundedRow.hi h
    constructor
    · intro hlt
      rw [if_pos hlt] at hlo
      exact Binary64.not_lt_self r.lo (hlo ▸ hlt)
    · intro hlt
      rw [if_pos hlt] at hhi
      exact Binary64.not_lt_self r.hi (hhi ▸ hlt)
  · rintro ⟨hlo, hhi⟩
    rw [within, if_neg hlo, if_neg hhi]

theorem map_within_eq_self_iff {rows : List BoundedRow} :
    rows.map (within I) = rows ↔ ∀ r ∈ rows, r.IsWithin I := by
  calc rows.map (within I) = rows ↔ rows.map (within I) = rows.map id := by rw [List.map_id]
    _ ↔ ∀ r ∈ rows, r.within I = r := List.map_inj_left
    _ ↔ ∀ r ∈ rows, r.IsWithin I := forall₂_congr fun r _ => within_eq_self_iff

/-! ## One row -/

/-- **A row without zeros and in increasing order is added as it is**, in every way. -/
theorem apply_editIn (hopen : m.frozen = false) (hn : (m.columns : Int) ≤ Int64.maxValue.toInt)
    (hr : r.row.Canonical m.columns) (hrange : IsRange r.lo r.hi) (hmode : mode ≠ .batch) (cache : RowCache) :
    ∃ cache' hit, (r.editIn m.columns mode).apply m cache = (cache', .ok (m.appendAll [r], hit)) := by
  have hfits : r.Fits m.columns := ⟨hr.fits, hrange⟩
  cases mode with
  | dense =>
    refine ⟨cache, none, ?_⟩
    rw [apply_dense hopen hfits, hr.asDense_eq hn]
    rfl
  | sparse => exact ⟨cache, none, apply_sparse hopen hfits cache⟩
  | cached =>
    obtain ⟨s, cache', hit, happly, halike, -⟩ := apply_cached (n := m.columns) hopen hfits cache
    rw [halike.eq_of_nonzero hr.nonzero] at happly
    exact ⟨cache', some hit, happly⟩
  | batch => exact absurd rfl hmode

theorem isRange_of_rowBounds {lo hi l u : Binary64} (h : rowBounds (.float lo) (.float hi) = .ok (l, u)) :
    IsRange lo hi := by
  obtain ⟨hl, hu, hrange⟩ := rowBounds_eq_ok_iff.mp h
  cases hl
  cases hu
  exact hrange

/-- **A row without a range is added in no way.** -/
theorem isRange_of_apply (h : (r.editIn n mode).apply m cache = (cache', .ok (m', hit))) : IsRange r.lo r.hi := by
  have hresult := congrArg Prod.snd h
  cases mode with
  | dense =>
    rw [editIn, Edit.apply_denseRow] at hresult
    obtain ⟨-, xs, l, u, -, -, hbounds, -⟩ := Model.addDenseRow_eq_ok_iff.mp (map_pair_eq_ok_iff.mp hresult).1
    exact isRange_of_rowBounds hbounds
  | sparse | batch =>
    have hadded : (r.edit.apply m cache).2 = .ok (m', hit) := hresult
    rw [edit, Edit.apply_sparseRow] at hadded
    obtain ⟨s, l, u, -, -, hbounds, -⟩ := Model.addSparseRow_eq_ok_iff.mp (map_pair_eq_ok_iff.mp hadded).1
    exact isRange_of_rowBounds hbounds
  | cached =>
    -- the bounds are read before the cache is asked
    cases hread : m.readCachedRow (.ofFloats r.row.coeffs) (.ofPositions r.row.indices) (.float r.lo)
        (.float r.hi) with
    | ok given =>
      obtain ⟨s, l, u⟩ := given
      exact isRange_of_rowBounds (Model.readCachedRow_eq_ok_iff.mp hread).2.2
    | error e =>
      rw [editIn, Edit.apply_cachedRow, Model.addCachedRow_of_error hread] at hresult
      cases hresult

end BoundedRow

/-! ## Edits in a row -/

namespace Session

variable {s s' : Session} {m m' : Model} {cache cache' : RowCache} {es : List (Except Error Edit)} {mode : Mode}
  {p : Instance}

/-- **What has come of edits in a row**: the session and the cache, if no edit was refused. -/
def carried? : Session × RowCache × Except Error Nat → Option (Session × RowCache)
  | (s, cache, .ok _) => some (s, cache)
  | (_, _, .error _) => none

/-- How many rows the cache had makes no difference. -/
theorem carried?_map (after : Session × RowCache × Except Error Nat) (f : Nat → Nat) :
    carried? (after.1, after.2.1, after.2.2.map f) = carried? after := by
  obtain ⟨s, cache, result⟩ := after
  cases result <;> rfl

/-- One edit, and others behind it. -/
theorem carried?_cons (s : Session) (cache : RowCache) (e : Edit) (es : List (Except Error Edit)) :
    carried? (s.editAll cache (.ok e :: es)) =
      match s.edit cache e with
      | ((s', cache'), .ok _) => carried? (s'.editAll cache' es)
      | (_, .error _) => none := by
  rw [editAll]
  dsimp only
  cases s.edit cache e with
  | mk kept answer =>
    cases answer with
    | error refusal => rfl
    | ok hit => exact carried?_map _ _

/-- **Edits behind others** are carried out if those are. -/
theorem carried?_append (s : Session) (cache : RowCache) (es fs : List (Except Error Edit)) :
    carried? (s.editAll cache (es ++ fs)) =
      (carried? (s.editAll cache es)).bind fun after => carried? (after.1.editAll after.2 fs) := by
  induction es generalizing s cache with
  | nil => rfl
  | cons e es ih =>
    cases e with
    | error refusal => rfl
    | ok e =>
      rw [List.cons_append, carried?_cons, carried?_cons]
      cases s.edit cache e with
      | mk kept answer =>
        cases answer with
        | error refusal => rfl
        | ok hit => exact ih kept.1 kept.2

/-- In a session that is being built it is the model that an edit is carried out on. -/
theorem carried?_cons_of_building (hs : s.stage = .building m) (cache : RowCache) (e : Edit)
    (es : List (Except Error Edit)) : carried? (s.editAll cache (.ok e :: es)) =
      match e.apply m cache with
      | (cache', .ok (m', _)) => carried? (({ s with stage := .building m' } : Session).editAll cache' es)
      | (_, .error _) => none := by
  rw [carried?_cons]
  cases happly : e.apply m cache with
  | mk cache' answer =>
    cases answer with
    | error refusal => rw [edit_of_refused hs happly]
    | ok given => rw [edit_of_apply hs happly]

/-- **Edits that are carried out keep the frame of the model**, and leave the rest of the session alone. -/
theorem building_of_carried? (hs : s.stage = .building m) (h : carried? (s.editAll cache es) = some (s', cache')) :
    ∃ m', s' = { s with stage := .building m' } ∧ m.SameFrame m' ∧ m'.frozen = m.frozen := by
  induction es generalizing s m cache with
  | nil =>
    cases h
    exact ⟨m, by rw [← hs], .rfl, rfl⟩
  | cons e es ih =>
    cases e with
    | error refusal => cases h
    | ok e =>
      rw [carried?_cons_of_building hs] at h
      cases happly : e.apply m cache with
      | mk cache₁ answer =>
        rw [happly] at h
        cases answer with
        | error refusal => cases h
        | ok given =>
          obtain ⟨m₁, hit⟩ := given
          obtain ⟨hframe, hfrozen⟩ := Edit.kept happly
          obtain ⟨m', rfl, hframe', hfrozen'⟩ := ih (s := { s with stage := .building m₁ }) rfl h
          exact ⟨m', rfl, hframe.trans hframe', hfrozen'.trans hfrozen⟩

/-- **Rows one by one**, without zeros and in increasing order, are added as they are if all of them have ranges. -/
theorem carried?_rows {rows : List BoundedRow} (hs : s.stage = .building m) (hopen : m.frozen = false)
    (hn : (m.columns : Int) ≤ Int64.maxValue.toInt) (hrows : ∀ r ∈ rows, r.row.Canonical m.columns)
    (hmode : mode ≠ .batch) (cache : RowCache) :
    (carried? (s.editAll cache ((rows.map (BoundedRow.editIn m.columns mode)).map .ok))).map Prod.fst =
      if ∀ r ∈ rows, IsRange r.lo r.hi then some { s with stage := .building (m.appendAll rows) } else none := by
  induction rows generalizing s m cache with
  | nil =>
    rw [if_pos (by simp), Model.appendAll_nil, ← hs]
    rfl
  | cons r rest ih =>
    obtain ⟨hr, hrest⟩ := List.forall_mem_cons.mp hrows
    rw [List.map_cons, List.map_cons, carried?_cons_of_building hs]
    by_cases hrange : IsRange r.lo r.hi
    · obtain ⟨cache', hit, happly⟩ := BoundedRow.apply_editIn hopen hn hr hrange hmode cache
      rw [happly]
      have hadded := ih (s := { s with stage := .building (m.appendAll [r]) }) rfl hopen hn hrest cache'
      simp only [Model.appendAll_appendAll, List.singleton_append] at hadded
      simp only [List.forall_mem_cons, hrange, true_and]
      exact hadded
    · -- the loading ends at this row
      have hall : ¬ ∀ s ∈ r :: rest, IsRange s.lo s.hi := fun h => hrange (h r List.mem_cons_self)
      rw [if_neg hall]
      cases happly : (r.editIn m.columns mode).apply m cache with
      | mk cache' answer =>
        cases answer with
        | error refusal => rfl
        | ok given => exact absurd (BoundedRow.isRange_of_apply happly) hrange

/-! ## Whole instances -/

/-- **What an instance makes of a session**, if it is loaded without a refusal. -/
def loaded? (s : Session) (cache : RowCache) (p : GivenInstance) (mode : Mode) : Option Session :=
  (carried? (s.load cache p (.text mode.name))).map Prod.fst

/-- **The model with the columns of an instance**, if they are not refused. -/
def withColumns? (s : Session) (cache : RowCache) (p : GivenInstance) : Option Model :=
  (carried? (s.editAll cache ((p.columnEdits s.infinity).map .ok))).bind fun after => after.1.stage.model?

/-- An objective is accepted by models of its length. -/
theorem columns_of_withColumns? (hs : s.stage = .building m) (h : s.withColumns? cache p.given ≠ none) :
    p.columns = m.columns := by
  by_contra hne
  have hread : numberVector p.given.objective.numberArg (.int m.columns) "objective" =
      .error (.wrongCount "objective" p.columns (.int m.columns)) := by
    show numberVector (Grid.vector p.objective).numberArg _ _ = _
    rw [Grid.numberArg_vector]
    exact numberVector_ofFloats_of_length hne _
  have hrefused : ∀ m', m.setObjective p.given.objective.numberArg ≠ .ok m' := by
    intro m' hset
    obtain ⟨-, xs, hxs, -, -⟩ := Model.setObjective_eq_ok_iff.mp hset
    rw [hread] at hxs
    cases hxs
  refine h ?_
  -- the objective is the first edit of all
  show (carried? (s.editAll cache (.ok (.objective p.given.objective.numberArg) :: _))).bind _ = _
  rw [carried?_cons_of_building hs]
  rw [Edit.apply_objective]
  cases hset : m.setObjective p.given.objective.numberArg with
  | error refusal => rfl
  | ok m' => exact absurd hset (hrefused m')

/-- **The columns come first**, in the same way whatever the mode; the rows go into the model that has them. -/
theorem loaded?_eq (hs : s.stage = .building m) (cache : RowCache) {after : Model → Option Session}
    (hrows : ∀ m₁ cache₁, m.SameFrame m₁ → m₁.frozen = m.frozen → p.columns = m₁.columns →
      (carried? (({ s with stage := .building m₁ } : Session).editAll cache₁
        (p.given.rowEdits s.infinity mode))).map Prod.fst = after m₁) :
    s.loaded? cache p.given mode = (s.withColumns? cache p.given).bind after := by
  have hcolumns : s.withColumns? cache p.given ≠ none → p.columns = m.columns := columns_of_withColumns? hs
  rw [loaded?, load_of_building hs, GivenInstance.edits, carried?_append]
  unfold withColumns? at hcolumns ⊢
  cases hcarried : carried? (s.editAll cache ((p.given.columnEdits s.infinity).map .ok)) with
  | none => rfl
  | some given =>
    obtain ⟨s₁, cache₁⟩ := given
    obtain ⟨m₁, rfl, hframe, hfrozen⟩ := building_of_carried? hs hcarried
    rw [hcarried] at hcolumns
    exact hrows m₁ cache₁ hframe hfrozen ((hcolumns nofun).trans hframe.columns.symm)

section Building

variable (hs : s.stage = .building m) (hopen : m.frozen = false) (hn : (m.columns : Int) ≤ Int64.maxValue.toInt)
  (hrows : ∀ r ∈ p.rows, r.row.Canonical m.columns ∧ IsRange r.lo r.hi) (cache : RowCache)
include hs hopen hrows

include hn in
/-- **What an instance makes of a session one row at a time**: all its rows within infinity, if these have ranges. -/
theorem loaded?_single (hmode : mode ≠ .batch) : s.loaded? cache p.given mode =
    (s.withColumns? cache p.given).bind fun m₁ =>
      if ∀ r ∈ p.rows.map (BoundedRow.within s.infinity), IsRange r.lo r.hi then
        some { s with stage := .building (m₁.appendAll (p.rows.map (BoundedRow.within s.infinity))) }
      else none := by
  refine loaded?_eq hs cache fun m₁ cache₁ hframe hfrozen hwidth => ?_
  have hcanonical : ∀ r ∈ p.rows, r.row.Canonical m₁.columns := fun r hr => hframe.columns ▸ (hrows r hr).1
  rw [Instance.rowEdits_within (fun r hr => hwidth ▸ (hcanonical r hr).fits) _ hmode, hwidth]
  have hwithin : ∀ r ∈ p.rows.map (BoundedRow.within s.infinity), r.row.Canonical m₁.columns :=
    List.forall_mem_map.mpr hcanonical
  exact carried?_rows (s := { s with stage := .building m₁ }) rfl (hfrozen.trans hopen) (hframe.columns ▸ hn)
    hwithin hmode cache₁

/-- **What it makes of a session in one batch**: all its rows, as they are. -/
theorem loaded?_batch (hsize : Model.entryCount p.rows ≤ Int64.maxValue.toInt) : s.loaded? cache p.given .batch =
    (s.withColumns? cache p.given).bind fun m₁ => some { s with stage := .building (m₁.appendAll p.rows) } := by
  refine loaded?_eq hs cache fun m₁ cache₁ hframe hfrozen _ => ?_
  have hfits : ∀ r ∈ p.rows, r.Fits m₁.columns :=
    fun r hr => hframe.columns ▸ ⟨(hrows r hr).1.fits, (hrows r hr).2⟩
  rw [Instance.rowEdits_batch]
  show (carried? (Session.editAll _ cache₁ [.ok ((Model.Batch.ofRows p.rows).edit p.rows.length)])).map _ = _
  rw [carried?_cons_of_building rfl, Model.Batch.apply_ofRows (hfrozen.trans hopen) hfits hsize]
  rfl

include hn in
/-- **When the ways agree**: rows one by one always do, and the batch does if the columns are refused or no row has a
bound beyond infinity. -/
theorem loaded?_agree_iff_of_building (hsize : Model.entryCount p.rows ≤ Int64.maxValue.toInt) :
    (∀ mode ≠ .batch, s.loaded? cache p.given mode = s.loaded? cache p.given .sparse) ∧
      (s.loaded? cache p.given .batch = s.loaded? cache p.given .sparse ↔
        s.withColumns? cache p.given = none ∨ ∀ r ∈ p.rows, r.IsWithin s.infinity) := by
  have hsingle (mode : Mode) (hmode : mode ≠ .batch) := loaded?_single hs hopen hn hrows cache hmode
  have hsparse := hsingle .sparse (by decide)
  refine ⟨fun mode hmode => (hsingle mode hmode).trans hsparse.symm, ?_⟩
  rw [hsparse, loaded?_batch hs hopen hrows cache hsize, ← BoundedRow.map_within_eq_self_iff]
  cases s.withColumns? cache p.given with
  | none => simp
  | some m₁ =>
    simp only [Option.bind_some, reduceCtorEq, false_or]
    constructor
    · intro hagree
      split at hagree
      · simpa [Model.appendAll, eq_comm] using hagree
      · cases hagree
    · intro hwithin
      have hranges : ∀ r ∈ p.rows, IsRange r.lo r.hi := fun r hr => (hrows r hr).2
      rw [hwithin, if_pos hranges]

end Building

/-! ## New sessions -/

/-- A new session is being built, with nothing but columns. -/
theorem building_of_create {backend : Backend} {timeLimit columns rowsHint : Arg}
    (hs : create backend timeLimit columns rowsHint = .ok s) : ∃ n hint : ℕ,
      columns.int? = some (n : Int) ∧ n < entryLimit ∧ s.stage = .building (.blank n hint s.infinity) := by
  obtain ⟨I, -, hs⟩ := bind_eq_ok_iff.mp hs
  obtain ⟨m, hm, hs⟩ := bind_eq_ok_iff.mp hs
  obtain ⟨limit, -, hs⟩ := bind_eq_ok_iff.mp hs
  cases hs
  obtain ⟨n, hint, J, hcolumns, hJ, hlt, rfl⟩ := Model.create_eq_ok hm
  cases hJ
  exact ⟨n, hint, hcolumns, hlt, rfl⟩

/-- **When the ways to load an instance agree.** Take a new session, with or without a handle, any row cache, and an
instance whose rows are in increasing order of the session's columns, without zeros, and with ranges. Loaded one row
at a time, it is loaded in every way or in none, and then it makes the same of the session. So does the batch if and
only if the columns are refused, or no row has a bound beyond the infinity of the session; no row has one if that is
the infinity of numbers. Rows in one batch are always taken as they are. -/
theorem loaded?_agree_iff {backend : Backend} {timeLimit columns rowsHint : Arg} {created : Session}
    (hcreate : create backend timeLimit columns rowsHint = .ok created) (handle : Option Nat) (cache : RowCache)
    {n : ℕ} (hcolumns : columns.int? = some (n : Int)) {p : Instance}
    (hrows : ∀ r ∈ p.rows, r.row.Canonical n ∧ IsRange r.lo r.hi)
    (hsize : Model.entryCount p.rows ≤ Int64.maxValue.toInt) :
    let s := { created with handle := handle }
    (∀ mode ≠ .batch, s.loaded? cache p.given mode = s.loaded? cache p.given .sparse) ∧
      (s.loaded? cache p.given .batch = s.loaded? cache p.given .sparse ↔
        s.withColumns? cache p.given = none ∨ ∀ r ∈ p.rows, r.IsWithin s.infinity) ∧
      (s.infinity = Binary64.infinity → ∀ r ∈ p.rows, r.IsWithin s.infinity) ∧
      ∀ m₁, s.withColumns? cache p.given = some m₁ →
        s.loaded? cache p.given .batch = some { s with stage := .building (m₁.appendAll p.rows) } := by
  intro s
  obtain ⟨k, hint, hk, hlt, hstage⟩ := building_of_create hcreate
  obtain rfl : n = k := Int.ofNat.inj (Option.some.inj (hcolumns.symm.trans hk))
  have hs : s.stage = .building (.blank n hint created.infinity) := hstage
  have hn : ((Model.blank n hint created.infinity).columns : Int) ≤ Int64.maxValue.toInt :=
    (Model.wellFormed_blank hlt).columns_le
  obtain ⟨hsingle, hbatch⟩ := loaded?_agree_iff_of_building hs rfl hn hrows cache hsize
  refine ⟨hsingle, hbatch, ?_, ?_⟩
  · intro hI r _
    rw [hI]
    exact ⟨Binary64.not_lt_negInfinity r.lo, Binary64.not_infinity_lt r.hi⟩
  · intro m₁ hm₁
    rw [loaded?_batch hs rfl hrows cache hsize, hm₁]
    rfl

/-- Two columns and two rows, one of which is unbounded from below, in a session without a finite infinity: all four
ways load the instance, and to the same session. -/
theorem loaded?_agree_of_infinite :
    let one := Binary64.one
    let I := Binary64.infinity
    let s : Session := ⟨none, "plain", I, none, Binary64.zero, .building (.blank 2 0 I)⟩
    let p : Instance := ⟨[one, one], [Binary64.zero, Binary64.zero], .vector [one, one], .vector [true, false],
      [⟨.ofArrays [0, 1] [one, one], I.neg, one⟩, ⟨.ofArrays [1] [one], Binary64.zero, one⟩]⟩
    let cache := RowCache.empty .digest
    create ⟨"plain", .float I⟩ .absent (.int 2) (.int 0) = .ok s ∧
      (∀ mode, s.loaded? cache p.given mode = s.loaded? cache p.given .sparse) ∧
      (s.loaded? cache p.given .sparse).isSome = true := by
  intro one I s p cache
  have hcreate : create ⟨"plain", .float I⟩ .absent (.int 2) (.int 0) = .ok s := rfl
  obtain ⟨hsingle, hbatch, hwithin, -⟩ := loaded?_agree_iff hcreate none cache (n := 2) (p := p) rfl
    (by decide +kernel) (by decide +kernel)
  refine ⟨hcreate, fun mode => ?_, by decide +kernel⟩
  by_cases hmode : mode = .batch
  · rw [hmode]
    exact hbatch.mpr (.inr (hwithin rfl))
  · exact hsingle mode hmode

/-- **A batch is not moved within infinity.** One column and one row that is unbounded from below, in a session for
which 100 is infinite: as a sparse row it gets the lower bound -100, in a batch it keeps its own. -/
theorem batch_keeps_infinite_bound :
    let one := Binary64.one
    let I := Binary64.ofInt 100
    let s : Session := ⟨none, "plain", I, none, Binary64.zero, .building (.blank 1 0 I)⟩
    let row : Row := .ofArrays [0] [one]
    let p : Instance := ⟨[one], [Binary64.zero], .vector [one], .vector [false],
      [⟨row, Binary64.negInfinity, one⟩]⟩
    let cache := RowCache.empty .digest
    let rowsIn (mode : Mode) := ((s.loaded? cache p.given mode).bind fun s => s.stage.model?).map Model.rows
    create ⟨"plain", .float I⟩ .absent (.int 1) (.int 0) = .ok s ∧
      rowsIn .sparse = some [⟨row, I.neg, one⟩] ∧
      rowsIn .batch = some [⟨row, Binary64.negInfinity, one⟩] ∧
      s.loaded? cache p.given .batch ≠ s.loaded? cache p.given .sparse := by
  intro one I s row p cache rowsIn
  refine ⟨rfl, ?_, ?_, ?_⟩
  · decide +kernel
  · decide +kernel
  · decide +kernel

end Session

end Milp
