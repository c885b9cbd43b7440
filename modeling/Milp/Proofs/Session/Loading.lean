import Milp.Proofs.Model.Vectors
import Milp.Proofs.Program.Dense
import Milp.Proofs.Row.Accounting
import Milp.Proofs.Session.Solutions
import Milp.Session.Loading

/-!
# What is loaded

A session that is being built takes every instance in order that is as wide as its model, whichever way the rows go
in. Through the cache each row is found or stored, so hits and new entries add up to the rows; the other ways leave
the cache alone.

* `Model.Open` — a model that takes edits; `Edit.IsTaken` — an edit that such models take.
* `RowCache.Booked` — what a cache counts for rows, in a row and one after the other.
* `Session.editAll_of_isTaken` — edits in a row, and `Session.load_given` — a whole instance.
* `Session.load_of_lacksUpper` — an instance that is refused on the way.
-/

namespace Milp

/-! ## Models that take edits, and edits that are taken -/

/-- **`m.Open n`** — a well-formed model with `n` columns that is still being built. -/
structure Model.Open (n : ℕ) (m : Model) : Prop where
  grounded : m.Grounded Binary64.infinity
  columns : m.columns = n
  unfrozen : m.frozen = false

/-- **What a cache counts**: where rows are counted, each of them is a hit or a new entry; where they are not, the
cache stays as it is. -/
structure RowCache.Booked (counted : Bool) (rows hits : ℕ) (cache cache' : RowCache) : Prop where
  balance : counted = true → hits + cache'.size = cache.size + rows
  idle : counted = false → hits = 0 ∧ cache' = cache

/-- Rows that are counted. -/
theorem RowCache.Booked.of_balance {rows hits : ℕ} {cache cache' : RowCache}
    (h : hits + cache'.size = cache.size + rows) : Booked true rows hits cache cache' where
  balance _ := h
  idle hidle := by cases hidle

/-- Rows that are not counted. -/
theorem RowCache.Booked.untouched (rows : ℕ) (cache : RowCache) : Booked false rows 0 cache cache where
  balance hcounted := by cases hcounted
  idle _ := ⟨rfl, rfl⟩

theorem RowCache.Booked.trans {counted : Bool} {rows rows' hits hits' : ℕ} {cache cache' cache'' : RowCache}
    (h : Booked counted rows hits cache cache') (h' : Booked counted rows' hits' cache' cache'') :
    Booked counted (rows + rows') (hits' + hits) cache cache'' where
  balance hcounted := by
    have := h.balance hcounted
    have := h'.balance hcounted
    omega
  idle hidle := by
    obtain ⟨rfl, rfl⟩ := h.idle hidle
    obtain ⟨rfl, rfl⟩ := h'.idle hidle
    exact ⟨rfl, rfl⟩

/-- **An edit that open models take.** -/
def Edit.IsTaken (n : ℕ) (counted : Bool) (e : Edit) : Prop :=
  ∀ (m : Model) (cache : RowCache), m.Open n → ∃ m' cache' hit,
    e.apply m cache = (cache', .ok (m', hit)) ∧ m'.frozen = false ∧
      RowCache.Booked counted 1 (hit.getD false).toNat cache cache'

variable {n : ℕ} {counted : Bool} {m m' : Model} {cache cache' : RowCache} {e : Edit} {hit : Option Bool}

/-- The model after a taken edit is open again. -/
theorem Model.Open.apply (hm : m.Open n) (hcache : cache.Sound) (h : e.apply m cache = (cache', .ok (m', hit)))
    (hopen : m'.frozen = false) : m'.Open n ∧ cache'.Sound := by
  obtain ⟨hsound, hgrounded⟩ := hm.grounded.apply hcache h
  exact ⟨⟨hgrounded m' hit rfl, (Edit.sameFrame h).columns.trans hm.columns, hopen⟩, hsound⟩

/-- An edit that leaves the cache alone. -/
theorem Edit.isTaken_of_plain
    (h : ∀ m cache, m.Open n → ∃ m', e.apply m cache = (cache, .ok (m', none)) ∧ m'.frozen = false) :
    e.IsTaken n false := by
  intro m cache hm
  obtain ⟨m', happly, hopen⟩ := h m cache hm
  exact ⟨m', cache, none, happly, hopen, .untouched 1 cache⟩

/-! ## Rows one by one -/

namespace BoundedRow

variable {r : BoundedRow}

/-- **A row that fits is added** by itself. -/
theorem apply_sparse (hopen : m.frozen = false) (hr : r.Fits m.columns) (cache : RowCache) :
    r.edit.apply m cache = (cache, .ok (m.appendAll [r], none)) := by
  have hcheck : r.check m.columns .absent = .ok r := check_eq_ok_iff.mpr ⟨rfl, hr⟩
  rw [edit, Edit.apply_sparseRow, Model.addSparseRow_given hopen, hcheck]
  rfl

theorem isTaken_sparse (hr : r.Fits n) : r.edit.IsTaken n false :=
  Edit.isTaken_of_plain fun _ cache hm => ⟨_, apply_sparse hm.unfrozen (hm.columns ▸ hr) cache, hm.unfrozen⟩

/-- **As a full vector** it is stored in increasing order of columns. -/
theorem apply_dense (hopen : m.frozen = false) (hr : r.Fits m.columns) (cache : RowCache) :
    (r.editIn m.columns .dense).apply m cache =
      (cache, .ok (m.append (r.row.asDense m.columns) r.lo r.hi, none)) := by
  have hbounds : rowBounds (.float r.lo) (.float r.hi) = .ok (r.lo, r.hi) :=
    rowBounds_eq_ok_iff.mpr ⟨rfl, rfl, hr.range⟩
  exact Edit.plain_of_ok (Edit.apply_denseRow m cache _ _ _) (Model.addDenseRow_scatter hopen hr.row hbounds)

theorem isTaken_dense (hr : r.Fits n) : (r.editIn n .dense).IsTaken n false :=
  Edit.isTaken_of_plain fun _ cache hm => by
    obtain rfl := hm.columns
    exact ⟨_, apply_dense hm.unfrozen hr cache, hm.unfrozen⟩

/-- A row that is stored is one entry more. -/
theorem size_withRow (cache : RowCache) (key : Signature) (r : Row) : (cache.withRow key r).size = cache.size + 1 := by
  have hrows := (cache.perm_rows_store key (.ofRow r)).length_eq
  rwa [List.length_append] at hrows

/-- What a row is read as before the cache is asked. -/
theorem readCachedRow_given (hopen : m.frozen = false) (hr : r.Fits n) :
    m.readCachedRow (.ofFloats r.row.coeffs) (.ofPositions r.row.indices) (.float r.lo) (.float r.hi) =
      .ok (r.row, r.lo, r.hi) := by
  refine Model.readCachedRow_eq_ok_iff.mpr ⟨?_, hr.row.lengths, rowBounds_eq_ok_iff.mpr ⟨rfl, rfl, hr.range⟩⟩
  rw [Model.readRow, Model.whenMutable_of_open hopen, coefficientVector_ofFloats, indexVector_ofPositions]
  exact congrArg Except.ok r.row.ofArrays_self

/-- **Through the cache** a row that fits is a hit or a new entry, and a row that agrees with it is added. A row that
is found needs the same columns, so it fits as well. -/
theorem apply_cached (hopen : m.frozen = false) (hr : r.Fits m.columns) (cache : RowCache) : ∃ s cache' hit,
    (r.editIn n .cached).apply m cache = (cache', .ok (m.append s r.lo r.hi, some hit)) ∧ s.Alike r.row ∧
      RowCache.Booked true 1 hit.toNat cache cache' := by
  have haddition := Model.cachedAddition cache (readCachedRow_given hopen hr)
  rw [editIn, Edit.apply_cachedRow]
  generalize m.addCachedRow cache (.ofFloats r.row.coeffs) (.ofPositions r.row.indices) (.float r.lo) (.float r.hi) =
    answer at haddition
  cases haddition with
  | shared s hfind hwide =>
    exact ⟨s.row, _, true, rfl, RowCache.alike_of_lookup hfind, .of_balance (Nat.add_comm _ _)⟩
  | stored hkey hnew hfits =>
    refine ⟨r.row, _, false, rfl, hr.row.alike, .of_balance ?_⟩
    rw [size_withRow]
    exact Nat.zero_add _
  | tooWide s hfind hnarrow =>
    have hsame := (RowCache.alike_of_lookup hfind).maxIndex_eq
    have hwide : r.row.maxIndex < m.columns := Row.maxIndex_lt_iff.mpr fun i hi => (hr.row.inRange i hi).2
    omega
  | refused e hnew hcheck =>
    rw [checkPattern_eq_ok_iff.mpr hr.row] at hcheck
    cases hcheck

theorem isTaken_cached (hr : r.Fits n) : (r.editIn n .cached).IsTaken n true := by
  intro m cache hm
  obtain ⟨s, cache', hit, happly, -, hbooked⟩ := apply_cached hm.unfrozen (hm.columns ▸ hr) cache
  exact ⟨_, cache', some hit, happly, hm.unfrozen, hbooked⟩

theorem isTaken_editIn (hr : r.Fits n) {mode : Mode} (hmode : mode ≠ .batch) :
    (r.editIn n mode).IsTaken n (decide (mode = .cached)) := by
  cases mode with
  | dense => exact isTaken_dense hr
  | sparse => exact isTaken_sparse hr
  | cached => exact isTaken_cached hr
  | batch => exact absurd rfl hmode

end BoundedRow

/-! ## Rows in one batch -/

/-- **Rows that fit are added as one batch**, if positions can count their entries. -/
theorem Model.Batch.apply_ofRows {rows : List BoundedRow} (hopen : m.frozen = false)
    (hrows : ∀ r ∈ rows, r.Fits m.columns) (hsize : entryCount rows ≤ Int64.maxValue.toInt) (cache : RowCache) :
    ((Batch.ofRows rows).edit rows.length).apply m cache = (cache, .ok (m.appendAll rows, none)) := by
  have hgiven : ∀ r ∈ rows, r.IsGiven := by
    intro r hr
    obtain ⟨hlo, hhi⟩ := Binary64.not_isNaN_of_le (hrows r hr).range.inOrder
    exact ⟨(hrows r hr).row.lengths, hlo, hhi⟩
  have hcheck : checkRows m.columns 0 rows = .ok rows := checkRows_eq_ok_iff.mpr ⟨rfl, hrows⟩
  rw [edit, Edit.apply_rows, Model.addRows_ofRows hopen hgiven hsize, hcheck]
  rfl

theorem Model.Batch.isTaken_ofRows {rows : List BoundedRow} (hrows : ∀ r ∈ rows, r.Fits n)
    (hsize : entryCount rows ≤ Int64.maxValue.toInt) :
    ((Batch.ofRows rows).edit rows.length).IsTaken n false :=
  Edit.isTaken_of_plain fun _ cache hm =>
    ⟨_, apply_ofRows hm.unfrozen (hm.columns ▸ hrows) hsize cache, hm.unfrozen⟩

/-! ## Columns -/

/-- Only infinity is at least infinity. -/
theorem IsRange.not_infinity_le {lo hi : Binary64} (h : IsRange lo hi) : ¬ Binary64.infinity.le lo = true := by
  intro hle
  obtain ⟨a, b, ha, hb, hab⟩ := Binary64.le_iff.mp hle
  cases ha
  have hend : b = sizeLimit := le_antisymm (Binary64.place?_bounds hb).2 hab
  exact h.lo_ne (Binary64.place?_eq_upper_end_iff.mp (hend ▸ hb))

/-- Only minus infinity is at most minus infinity. -/
theorem IsRange.not_le_negInfinity {lo hi : Binary64} (h : IsRange lo hi) : ¬ hi.le Binary64.negInfinity = true := by
  intro hle
  obtain ⟨a, b, ha, hb, hab⟩ := Binary64.le_iff.mp hle
  cases hb
  have hend : a = -sizeLimit := le_antisymm hab (Binary64.place?_bounds ha).1
  exact h.hi_ne (Binary64.place?_eq_lower_end_iff.mp (hend ▸ ha))

/-- Ranges are between numbers. -/
theorem numbers_of_ranges {los his : List Binary64} (hlength : los.length = his.length)
    (h : ∀ b ∈ los.zip his, IsRange b.1 b.2) :
    (∀ x ∈ los, x.isNaN = false) ∧ ∀ x ∈ his, x.isNaN = false :=
  forall_mem_of_zip (P := fun x => Binary64.isNaN x = false) (Q := fun x => Binary64.isNaN x = false) hlength
    fun b hb => Binary64.not_isNaN_of_le (h b hb).inOrder

namespace Instance

variable {p : Instance} {us : List Binary64} {bs : List Bool}

/-- A finite objective is taken. -/
theorem isTaken_objective (hfinite : ∀ x ∈ p.objective, x.isFinite = true) :
    (Edit.objective (.ofFloats p.objective)).IsTaken p.columns false := by
  refine Edit.isTaken_of_plain fun m cache hm => ⟨{ m with objective := p.objective }, ?_, hm.unfrozen⟩
  exact Edit.plain_of_ok (Edit.apply_objective m cache _)
    (Model.setObjective_of_finite hm.unfrozen hm.columns.symm hfinite)

/-- **The columns of an instance in order are taken.** -/
theorem isTaken_columnEdits (hp : p.WellFormed) (hus : us.length = p.columns)
    (hranges : ∀ b ∈ p.lower.zip us, IsRange b.1 b.2) (hbs : bs.length = p.columns) :
    ∀ e ∈ p.columnEdits us bs, e.IsTaken p.columns false := by
  have hlength : p.lower.length = us.length := hp.lower_length.trans hus.symm
  obtain ⟨hlower, hupper⟩ := numbers_of_ranges hlength hranges
  obtain ⟨hlo, hhi⟩ := forall_mem_of_zip (P := fun x => ¬ Binary64.infinity.le x = true)
    (Q := fun x => ¬ x.le Binary64.negInfinity = true) hlength
    fun b hb => ⟨(hranges b hb).not_infinity_le, (hranges b hb).not_le_negInfinity⟩
  have hcrossed : ∀ b ∈ p.lower.zip us, ¬ b.2.lt b.1 = true := by
    intro b hb
    obtain ⟨hlonumber, hhinumber⟩ := Binary64.not_isNaN_of_le (hranges b hb).inOrder
    exact (Binary64.not_lt_iff hhinumber hlonumber).mpr (hranges b hb).inOrder
  refine List.forall_mem_cons.mpr ⟨isTaken_objective hp.objective_finite,
    List.forall_mem_cons.mpr ⟨?_, List.forall_mem_singleton.mpr ?_⟩⟩
  · refine Edit.isTaken_of_plain fun m cache hm => ?_
    have hset := Model.setColumnBounds_eq_ok_iff.mpr ⟨hm.unfrozen, p.lower, us,
      numberVector_ofFloats hlower (hp.lower_length.trans hm.columns.symm) _,
      numberVector_ofFloats hupper (hus.trans hm.columns.symm) _, hm.grounded.infinity.symm ▸ hlo,
      hm.grounded.infinity.symm ▸ hhi, hcrossed, rfl⟩
    refine ⟨{ m with
      lower := p.lower.map fun x => x.maximum m.infinity.neg
      upper := us.map fun x => x.minimum m.infinity },
      Edit.plain_of_ok (Edit.apply_columnBounds m cache _ _) hset, hm.unfrozen⟩
  · refine Edit.isTaken_of_plain fun m cache hm => ?_
    have hset := Model.setColumnInteger_of_flags hm.unfrozen (hbs.trans hm.columns.symm)
    exact ⟨{ m with integer := bs }, Edit.plain_of_ok (Edit.apply_columnInteger m cache _) hset, hm.unfrozen⟩

/-- **The rows of an instance in order are taken** in every mode. -/
theorem isTaken_rowEdits (hp : p.WellFormed) {mode : Mode}
    (hsize : mode = .batch → Model.entryCount p.rows ≤ Int64.maxValue.toInt) :
    ∀ e ∈ p.rowEdits mode, e.IsTaken p.columns (decide (mode = .cached)) := by
  have hsingle : mode ≠ .batch → ∀ e ∈ p.rows.map (BoundedRow.editIn p.columns mode),
      e.IsTaken p.columns (decide (mode = .cached)) := fun hmode =>
    List.forall_mem_map.mpr fun r hr => BoundedRow.isTaken_editIn (hp.rows_fit r hr) hmode
  cases mode with
  | batch => exact List.forall_mem_singleton.mpr (Model.Batch.isTaken_ofRows hp.rows_fit (hsize rfl))
  | dense | sparse | cached => exact hsingle (by decide)

end Instance

/-! ## Edits in a row -/

namespace Session

variable {s s' : Session}

/-- **Edits that are taken are all carried out.** -/
theorem editAll_of_isTaken {edits : List Edit} (hedits : ∀ e ∈ edits, e.IsTaken n counted)
    (hs : s.stage = .building m) (hm : m.Open n) (hcache : cache.Sound) : ∃ m' cache' hits,
      s.editAll cache (edits.map .ok) = ({ s with stage := .building m' }, cache', .ok hits) ∧ m'.Open n ∧
        cache'.Sound ∧ RowCache.Booked counted edits.length hits cache cache' := by
  induction edits generalizing s m cache with
  | nil =>
    refine ⟨m, cache, 0, ?_, hm, hcache, ⟨fun _ => Nat.zero_add _, fun _ => ⟨rfl, rfl⟩⟩⟩
    rw [← hs]
    rfl
  | cons e rest ih =>
    obtain ⟨he, hrest⟩ := List.forall_mem_cons.mp hedits
    obtain ⟨m₁, cache₁, hit, happly, hopen, hbooked⟩ := he m cache hm
    obtain ⟨hm₁, hcache₁⟩ := hm.apply hcache happly hopen
    obtain ⟨m₂, cache₂, hits, hall, hm₂, hcache₂, hbooked'⟩ :=
      ih (s := { s with stage := .building m₁ }) hrest rfl hm₁ hcache₁
    refine ⟨m₂, cache₂, hits + (hit.getD false).toNat, ?_, hm₂, hcache₂, ?_⟩
    · rw [List.map_cons, editAll]
      dsimp only
      rw [edit_of_apply hs happly]
      dsimp only
      rw [hall]
      rfl
    · rw [List.length_cons, Nat.add_comm rest.length]
      exact hbooked.trans hbooked'

/-- Edits that are all carried out, behind others that are. -/
theorem editAll_append {s'' : Session} {cache'' : RowCache} {es fs : List (Except Error Edit)} {hits hits' : ℕ}
    (h : s.editAll cache es = (s', cache', .ok hits)) (h' : s'.editAll cache' fs = (s'', cache'', .ok hits')) :
    s.editAll cache (es ++ fs) = (s'', cache'', .ok (hits' + hits)) := by
  induction es generalizing s cache hits with
  | nil =>
    cases h
    exact h'
  | cons e es ih =>
    cases e with
    | error refusal => cases h
    | ok e =>
      rw [List.cons_append]
      rw [editAll] at h ⊢
      cases hedit : s.edit cache e with
      | mk kept answer =>
        rw [hedit] at h
        obtain ⟨s₁, cache₁⟩ := kept
        cases answer with
        | error refusal => cases h
        | ok hit =>
          dsimp only at h ⊢
          cases hrest : s₁.editAll cache₁ es with
          | mk s₂ tail =>
            obtain ⟨cache₂, result⟩ := tail
            rw [hrest] at h
            cases result with
            | error refusal => cases h
            | ok k =>
              obtain ⟨rfl, hpair⟩ := Prod.mk.inj h
              obtain ⟨rfl, hk⟩ := Prod.mk.inj hpair
              cases hk
              rw [ih hrest, ← Nat.add_assoc]
              rfl

/-! ## Whole instances -/

theorem mode_read (mode : Mode) : Mode.read (.text mode.name) = .ok mode := by
  cases mode <;> rfl

/-- Loading into a session that is being built carries out all edits. -/
theorem load_of_building (hs : s.stage = .building m) (cache : RowCache) (p : GivenInstance) (mode : Mode) :
    s.load cache p (.text mode.name) = s.editAll cache (p.edits s.infinity mode) := by
  have hinfinity : s.getInfinity = .ok s.infinity := by
    rw [getInfinity, model, hs]
    rfl
  rw [load, mode_read, hinfinity]

/-- **Every instance in order is loaded**, in every mode, into a session that is being built and has the right width.
Hits and new entries add up to the rows in the cached mode; in the other modes there are none. -/
theorem load_given {p : Instance} (hp : p.WellFormed) (hs : s.stage = .building m)
    (hI : s.infinity = Binary64.infinity) (hm : m.Open p.columns) (hcache : cache.Sound) {mode : Mode}
    (hsize : mode = .batch → Model.entryCount p.rows ≤ Int64.maxValue.toInt) : ∃ m' cache' hits,
      s.load cache p.given (.text mode.name) = ({ s with stage := .building m' }, cache', .ok hits) ∧
        m'.Open p.columns ∧ cache'.Sound ∧
          RowCache.Booked (decide (mode = .cached)) p.rows.length hits cache cache' := by
  obtain ⟨us, hus, huslength, hranges⟩ := hp.upper
  obtain ⟨bs, hbs, hbslength⟩ := hp.integer
  have hlength : p.lower.length = us.length := hp.lower_length.trans huslength.symm
  obtain ⟨hlower, hupper⟩ := numbers_of_ranges hlength hranges
  have hedits : p.given.edits s.infinity mode = (p.columnEdits us bs).map .ok ++ (p.rowEdits mode).map .ok := by
    rw [hI, ← Instance.columnEdits_given hus hbs hlower hupper, ← Instance.rowEdits_given hp]
    rfl
  obtain ⟨m₁, cache₁, hits₁, hcolumns, hm₁, hcache₁, hbooked₁⟩ :=
    editAll_of_isTaken (Instance.isTaken_columnEdits hp huslength hranges hbslength) hs hm hcache
  obtain ⟨rfl, rfl⟩ := hbooked₁.idle rfl
  obtain ⟨m₂, cache₂, hits₂, hrows, hm₂, hcache₂, hbooked₂⟩ :=
    editAll_of_isTaken (s := { s with stage := .building m₁ }) (Instance.isTaken_rowEdits hp hsize) rfl hm₁ hcache₁
  refine ⟨m₂, cache₂, hits₂, ?_, hm₂, hcache₂, ?_⟩
  · rw [load_of_building hs, hedits]
    exact editAll_append hcolumns hrows
  · have hcount : (p.rows.map (BoundedRow.editIn p.columns mode)).length = p.rows.length := List.length_map _
    cases mode with
    | batch =>
      obtain ⟨rfl, rfl⟩ := hbooked₂.idle rfl
      exact .untouched _ _
    | dense | sparse | cached => exact hcount ▸ hbooked₂

/-- **An instance without upper bounds is refused** in every mode, after its objective has been taken. -/
theorem load_of_lacksUpper {p : Instance} (hp : p.LacksUpper) (hs : s.stage = .building m)
    (hI : s.infinity = Binary64.infinity) (hm : m.Open p.columns) (cache : RowCache) (mode : Mode) :
    ∃ s' cache' refusal, s.load cache p.given (.text mode.name) = (s', cache', .error refusal) ∧
      refusal.isInvalidArgument = true := by
  have hlower : ∀ x ∈ p.lower, x.isNaN = false := by
    intro x hx
    rw [hp.lower] at hx
    rw [List.eq_of_mem_replicate hx]
    rfl
  have hedits : p.given.edits s.infinity mode =
      (p.columnEdits [] []).map .ok ++ p.given.rowEdits Binary64.infinity mode := by
    rw [hI, ← Instance.columnEdits_given hp.upper hp.integer hlower fun x hx => absurd hx List.not_mem_nil]
    rfl
  obtain ⟨m₁, cache₁, hit, happly, hopen, -⟩ := Instance.isTaken_objective hp.objective_finite m cache hm
  -- the lower bounds are read first and have the right length, so it is the upper bounds that are refused
  have hrefused : (Edit.columnBounds (.ofFloats p.lower) (.ofFloats [])).apply m₁ cache₁ =
      (cache₁, .error (.wrongCount "column upper bounds" 0 (.int m₁.columns))) := by
    have hcolumns : m₁.columns = p.columns := (Edit.sameFrame happly).columns.trans hm.columns
    have hlos : numberVector (.ofFloats p.lower) (.int m₁.columns) "column lower bounds" = .ok p.lower := by
      refine numberVector_ofFloats hlower ?_ _
      rw [hcolumns, hp.lower, List.length_replicate]
    have hpos : ([] : List Binary64).length ≠ m₁.columns := by
      rw [hcolumns]
      exact hp.columns_pos.ne
    have hhis := numberVector_ofFloats_of_length hpos "column upper bounds"
    rw [Edit.apply_columnBounds, Model.setColumnBounds, (Operation.settles_setColumnBounds m₁ _ _).outcome_eq,
      Model.whenMutable_of_open hopen, hlos, hhis]
    rfl
  refine ⟨{ s with stage := .building m₁ }, cache₁, .wrongCount "column upper bounds" 0 (.int m₁.columns), ?_, rfl⟩
  rw [load_of_building hs, hedits]
  show s.editAll cache (.ok _ :: .ok _ :: _) = _
  rw [editAll, edit_of_apply hs happly]
  dsimp only
  rw [editAll, edit_of_refused rfl hrefused]
  rfl

end Session

end Milp
