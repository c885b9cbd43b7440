import Milp.Instance.Basic
import Milp.Proofs.Batch.Reading
import Milp.Proofs.Model.Calls

/-!
# A batch does what its rows do one by one

Rows that are laid out one behind the other, with their offsets in front, make a batch. Adding it and
adding the rows by single calls comes to the same: the same model, or the refusal of the first row that
does not fit, and then a model without any of the rows.

* `pieces_ofRows` — the layout of rows is cut into these rows.
* `addRows_ofRows` and `addSparseRow_given` — what a batch and a single row come down to.
* `answers_rowCalls` and `run_rowCalls` — single calls, up to the first refusal.
* `call_batch_of_rowCalls` — a batch against single calls.
-/

namespace Milp

/-! ## Rows and batches as they are given -/

/-- **`r.IsGiven`** — a row that can be handed over at all: a coefficient for every index, and bounds that
are numbers. Nothing else about it is known. -/
structure BoundedRow.IsGiven (r : BoundedRow) : Prop where
  lengths : r.row.indices.length = r.row.coeffs.length
  lo_number : r.lo.isNaN = false
  hi_number : r.hi.isNaN = false

instance (r : BoundedRow) : Decidable r.IsGiven :=
  decidable_of_iff (r.row.indices.length = r.row.coeffs.length ∧ r.lo.isNaN = false ∧
      r.hi.isNaN = false)
    ⟨fun h => ⟨h.1, h.2.1, h.2.2⟩, fun h => ⟨h.lengths, h.lo_number, h.hi_number⟩⟩

/-- The edit that adds a row by itself. -/
def BoundedRow.edit (r : BoundedRow) : Edit :=
  .sparseRow (.ofFloats r.row.coeffs) (.ofPositions r.row.indices) (.float r.lo) (.float r.hi)

namespace Model

/-- **Rows laid out as one batch**: offsets, then all indices, all coefficients and all bounds in the
order of the rows. -/
def Batch.ofRows (rows : List BoundedRow) : Batch where
  starts := Instance.offsetsFrom 0 (rows.map (·.row))
  indices := rows.flatMap (·.row.indices)
  coeffs := rows.flatMap (·.row.coeffs)
  lower := rows.map (·.lo)
  upper := rows.map (·.hi)

/-- The edit that adds a batch of `count` rows. -/
def Batch.edit (count : Nat) (b : Batch) : Edit :=
  .rows (.int count) (.ofPositions b.starts) (.ofPositions b.indices) (.ofFloats b.coeffs)
    (.ofFloats b.lower) (.ofFloats b.upper)

/-! ## The layout of rows -/

/-- The number of entries of rows. -/
def entryCount (rows : List BoundedRow) : Nat := (rows.flatMap (·.row.indices)).length

theorem entryCount_cons (r : BoundedRow) (rest : List BoundedRow) :
    entryCount (r :: rest) = r.row.size + entryCount rest := by
  simp [entryCount, Row.size]

/-- Rows of one size have that many entries each. -/
theorem entryCount_of_size {rows : List BoundedRow} {size : ℕ} (h : ∀ r ∈ rows, r.row.size = size) :
    entryCount rows = rows.length * size := by
  induction rows with
  | nil => exact (Nat.zero_mul size).symm
  | cons r rest ih =>
    obtain ⟨hr, hrest⟩ := List.forall_mem_cons.mp h
    rw [entryCount_cons, ih hrest, hr, List.length_cons, Nat.succ_mul, Nat.add_comm]

theorem length_flatMap_coeffs {rows : List BoundedRow} (h : ∀ r ∈ rows, r.IsGiven) :
    (rows.flatMap (·.row.coeffs)).length = entryCount rows := by
  induction rows with
  | nil => rfl
  | cons r rest ih =>
    obtain ⟨hr, hrest⟩ := List.forall_mem_cons.mp h
    rw [List.flatMap_cons, List.length_append, ih hrest, entryCount_cons, Row.size, hr.lengths]

theorem offsetsFrom_eq_cons (first : Int64) (rows : List Row) :
    Instance.offsetsFrom first rows = first :: (Instance.offsetsFrom first rows).tail := by
  cases rows <;> rfl

theorem length_offsetsFrom (first : Int64) (rows : List Row) :
    (Instance.offsetsFrom first rows).length = rows.length + 1 := by
  induction rows generalizing first with
  | nil => rfl
  | cons r rest ih => simp [Instance.offsetsFrom, ih]

theorem getLast?_offsetsFrom (k : Nat) (rows : List BoundedRow) :
    (Instance.offsetsFrom (Int64.ofNat k) (rows.map (·.row))).getLast? =
      some (Int64.ofNat (k + entryCount rows)) := by
  induction rows generalizing k with
  | nil => rfl
  | cons r rest ih =>
    rw [List.map_cons, Instance.offsetsFrom, ← Int64.ofNat_add, offsetsFrom_eq_cons,
      List.getLast?_cons_cons, ← offsetsFrom_eq_cons, ih, entryCount_cons, Nat.add_assoc]

/-- Offsets that count entries do not decrease, even where they wrap: their differences are counts. -/
theorem nonDecreasing_offsetsFrom (first : Int64) {rows : List BoundedRow}
    (h : entryCount rows ≤ Int64.maxValue.toInt) :
    nonDecreasing (Instance.offsetsFrom first (rows.map (·.row))) = true := by
  induction rows generalizing first with
  | nil => rfl
  | cons r rest ih =>
    rw [entryCount_cons] at h
    have hr : r.row.size ≤ Int64.maxValue.toInt := by omega
    -- the difference of neighbours is the count of one row, whatever the offsets are
    have hstep : 0 ≤ first + Int64.ofNat r.row.size - first := by
      rw [Int64.add_comm, Int64.add_sub_cancel, Int64.le_iff_toInt_le, Int64.toInt_zero,
        toInt_ofNat hr]
      omega
    have ih := ih (first + Int64.ofNat r.row.size) (by omega)
    rw [List.map_cons, Instance.offsetsFrom]
    rw [offsetsFrom_eq_cons] at ih ⊢
    rw [nonDecreasing, ih, Bool.and_true, decide_eq_true hstep]

/-- **Rows that lie behind other entries are cut off at their offsets.** -/
theorem pieces_offsetsFrom (is : List Int64) (cs : List Binary64) {rows : List BoundedRow}
    (hpre : is.length = cs.length) (h : ∀ r ∈ rows, r.IsGiven)
    (hsize : (is.length + entryCount rows : Nat) ≤ Int64.maxValue.toInt) :
    Model.pieces (is ++ rows.flatMap (·.row.indices)) (cs ++ rows.flatMap (·.row.coeffs))
      (Instance.offsetsFrom (Int64.ofNat is.length) (rows.map (·.row))) (rows.map (·.lo))
      (rows.map (·.hi)) = rows := by
  induction rows generalizing is cs with
  | nil => rfl
  | cons r rest ih =>
    obtain ⟨hr, hrest⟩ := List.forall_mem_cons.mp h
    have hcount : entryCount (r :: rest) = r.row.indices.length + entryCount rest :=
      entryCount_cons r rest
    have hstart : (Int64.ofNat is.length).toInt = is.length := toInt_ofNat (by omega)
    have hstop : (Int64.ofNat (is.length + r.row.indices.length)).toInt =
        (is.length + r.row.indices.length : Nat) := toInt_ofNat (by omega)
    -- what has been cut off becomes part of the entries before the rest
    have ih := ih (is ++ r.row.indices) (cs ++ r.row.coeffs)
      (by simp [hpre, hr.lengths]) hrest (by rw [List.length_append]; omega)
    have hi := slice_append_append is r.row.indices (rest.flatMap (·.row.indices))
    have hc := slice_append_append cs r.row.coeffs (rest.flatMap (·.row.coeffs))
    rw [← hpre, ← hr.lengths] at hc
    rw [List.length_append, List.append_assoc, List.append_assoc] at ih
    rw [List.append_assoc] at hi hc
    simp only [List.map_cons, List.flatMap_cons, Instance.offsetsFrom, ← Int64.ofNat_add, Row.size]
    rw [offsetsFrom_eq_cons] at ih ⊢
    rw [Model.pieces, hstart, hstop, hi, hc, ih, Row.ofArrays_self]

/-- **The layout of rows is cut into these rows.** -/
theorem pieces_ofRows {rows : List BoundedRow} (h : ∀ r ∈ rows, r.IsGiven)
    (hsize : entryCount rows ≤ Int64.maxValue.toInt) : (Batch.ofRows rows).pieces = rows :=
  pieces_offsetsFrom [] [] rfl h (by simpa using hsize)

/-- The layout of rows is aligned. -/
theorem aligned_ofRows {rows : List BoundedRow} (h : ∀ r ∈ rows, r.IsGiven)
    (hsize : entryCount rows ≤ Int64.maxValue.toInt) : (Batch.ofRows rows).Aligned rows.length where
  count := by simp [Batch.ofRows, length_offsetsFrom]
  lengths := by
    rw [Batch.ofRows, length_flatMap_coeffs h]
    rfl
  first := by
    rw [Batch.ofRows, offsetsFrom_eq_cons]
    rfl
  ordered := nonDecreasing_offsetsFrom 0 hsize
  last := by
    have hlast := getLast?_offsetsFrom 0 rows
    have hzero : Int64.ofNat 0 = 0 := rfl
    rw [hzero, Nat.zero_add] at hlast
    simp only [Batch.ofRows, hlast, Option.getD_some]
    exact toInt_ofNat hsize

/-- The layout of rows is read back. -/
theorem readBatch_ofRows {rows : List BoundedRow} (h : ∀ r ∈ rows, r.IsGiven) :
    readBatch (.int rows.length) (.ofPositions (Batch.ofRows rows).starts)
      (.ofPositions (Batch.ofRows rows).indices) (.ofFloats (Batch.ofRows rows).coeffs)
      (.ofFloats (Batch.ofRows rows).lower) (.ofFloats (Batch.ofRows rows).upper) =
        .ok (Batch.ofRows rows) := by
  refine readBatch_of_lists (List.length_map ..) (List.length_map ..) ?_
  refine List.forall_mem_append.mpr ⟨?_, ?_⟩
  · exact List.forall_mem_map.mpr fun r hr => (h r hr).lo_number
  · exact List.forall_mem_map.mpr fun r hr => (h r hr).hi_number

/-! ## What the two ways come down to -/

variable {m : Model}

/-- **A row by itself is checked and added.** -/
theorem addSparseRow_given {r : BoundedRow} (hopen : m.frozen = false) :
    m.addSparseRow (.ofFloats r.row.coeffs) (.ofPositions r.row.indices) (.float r.lo) (.float r.hi) =
      (r.check m.columns .absent).map fun s => m.appendAll [s] := by
  rw [addSparseRow, (Operation.settles_addSparseRow m _ _ _ _).outcome_eq, whenMutable_of_open hopen,
    coefficientVector_ofFloats, indexVector_ofPositions]
  show (checkPattern r.row.indices r.row.coeffs m.columns .absent >>= fun _ =>
    rowBounds (.float r.lo) (.float r.hi) >>= fun b =>
      pure (m.append (.ofArrays r.row.indices r.row.coeffs) b.1 b.2)) = _
  rw [BoundedRow.check, Row.ofArrays_self]
  cases checkPattern r.row.indices r.row.coeffs m.columns .absent with
  | error e => rfl
  | ok _ => cases rowBounds (.float r.lo) (.float r.hi) <;> rfl

/-- **Rows in one batch are checked in order and added.** -/
theorem addRows_ofRows {rows : List BoundedRow} (hopen : m.frozen = false)
    (h : ∀ r ∈ rows, r.IsGiven) (hsize : entryCount rows ≤ Int64.maxValue.toInt) :
    m.addRows (.int rows.length) (.ofPositions (Batch.ofRows rows).starts)
      (.ofPositions (Batch.ofRows rows).indices) (.ofFloats (Batch.ofRows rows).coeffs)
      (.ofFloats (Batch.ofRows rows).lower) (.ofFloats (Batch.ofRows rows).upper) =
        (checkRows m.columns 0 rows).map m.appendAll := by
  rw [addRows_eq hopen rfl (Int.natCast_nonneg _) (readBatch_ofRows h) (aligned_ofRows h hsize),
    pieces_ofRows h hsize]

end Model

/-! ## Calls -/

namespace Workspace

variable {w : Workspace} {i : Nat} {m : Model} {rows : List BoundedRow}

/-- The calls that add rows to a model one by one. -/
def rowCalls (i : Nat) (rows : List BoundedRow) : List Call :=
  rows.map fun r => .edit i r.edit

/-- The call that adds rows to a model as one batch. -/
def batchCall (i : Nat) (rows : List BoundedRow) : Call :=
  .edit i ((Model.Batch.ofRows rows).edit rows.length)

/-- A row that passes its check is added. -/
theorem call_row_accepted {r s : BoundedRow} (hm : w.models[i]? = some m) (hopen : m.frozen = false)
    (h : r.check m.columns .absent = .ok s) :
    w.call (.edit i r.edit) = (w.put i (m.appendAll [r]), .ok none) := by
  have hs := (BoundedRow.check_eq_ok_iff.mp h).1
  refine call_accepted hm ?_
  rw [BoundedRow.edit, Edit.apply_sparseRow, Model.addSparseRow_given hopen, h, hs]
  rfl

/-- A row that does not pass its check is refused. -/
theorem call_row_refused {r : BoundedRow} {e : Error} (hm : w.models[i]? = some m)
    (hopen : m.frozen = false) (h : r.check m.columns .absent = .error e) :
    w.call (.edit i r.edit) = (w, .error e) := by
  refine call_refused hm ?_
  rw [BoundedRow.edit, Edit.apply_sparseRow, Model.addSparseRow_given hopen, h]
  rfl

/-- **Rows are all accepted one by one exactly if they fit**, and then stand in the model in their
order. -/
theorem answers_rowCalls (hm : w.models[i]? = some m) (hopen : m.frozen = false) :
    (∀ a ∈ w.answers (rowCalls i rows), a = .ok none) ↔ ∀ r ∈ rows, r.Fits m.columns := by
  induction rows generalizing w m with
  | nil => simp [rowCalls, answers]
  | cons r rest ih =>
    show (∀ a ∈ (w.call (.edit i r.edit)).2 ::
      (w.call (.edit i r.edit)).1.answers (rowCalls i rest), a = .ok none) ↔ _
    rw [List.forall_mem_cons, List.forall_mem_cons]
    cases hcheck : r.check m.columns .absent with
    | error e =>
      rw [call_row_refused hm hopen hcheck]
      constructor
      · rintro ⟨hfirst, -⟩
        cases hfirst
      · rintro ⟨hfits, -⟩
        rw [BoundedRow.check_eq_ok_iff.mpr ⟨rfl, hfits⟩] at hcheck
        cases hcheck
    | ok s =>
      -- the model has grown by a row, and its width is the same
      have hrest := ih (m := m.appendAll [r]) (models_put hm _) hopen
      rw [call_row_accepted hm hopen hcheck, hrest, Model.columns_appendAll]
      simp [(BoundedRow.check_eq_ok_iff.mp hcheck).2]

/-- Rows that fit are added in their order. -/
theorem run_rowCalls (hm : w.models[i]? = some m) (hopen : m.frozen = false)
    (h : ∀ r ∈ rows, r.Fits m.columns) : w.run (rowCalls i rows) = w.put i (m.appendAll rows) := by
  induction rows generalizing w m with
  | nil => simp [rowCalls, put_self hm]
  | cons r rest ih =>
    obtain ⟨hfits, hrest⟩ := List.forall_mem_cons.mp h
    have hcall := call_row_accepted hm hopen (BoundedRow.check_eq_ok_iff.mpr ⟨rfl, hfits⟩)
    have hrun := ih (m := m.appendAll [r]) (models_put hm _) hopen hrest
    show (w.call (.edit i r.edit)).1.run (rowCalls i rest) = _
    rw [hcall, hrun]
    simp

/-- **The first row that is refused by itself** is the first that the check of the batch refuses, in
words that may differ. -/
theorem checkRows_of_answers {done rest : List (Except Error (Option Bool))} {e : Error}
    (position : Nat) (hm : w.models[i]? = some m) (hopen : m.frozen = false)
    (h : w.answers (rowCalls i rows) = done ++ .error e :: rest) (hdone : ∀ a ∈ done, a = .ok none) :
    ∃ e', Model.checkRows m.columns position rows = .error e' ∧ e'.category = e.category := by
  induction rows generalizing w m position done with
  | nil => simp [rowCalls, answers] at h
  | cons r rows ih =>
    have hwords := r.category_check m.columns (.int position) .absent
    change (w.call (.edit i r.edit)).2 :: (w.call (.edit i r.edit)).1.answers (rowCalls i rows) = _ at h
    cases hcheck : r.check m.columns .absent with
    | error e₁ =>
      -- the first call is refused, so no call is done before it
      rw [call_row_refused hm hopen hcheck] at h
      have he : e₁ = e := by
        cases done with
        | nil => exact Except.error.inj (List.cons.inj h).1
        | cons a done =>
          have ha := hdone a List.mem_cons_self
          rw [← (List.cons.inj h).1] at ha
          cases ha
      rw [hcheck, he] at hwords
      obtain ⟨e', he', hcategory⟩ := mapError_eq_error_iff.mp hwords
      exact ⟨e', by rw [Model.checkRows, he']; rfl, hcategory⟩
    | ok s =>
      rw [call_row_accepted hm hopen hcheck] at h
      obtain ⟨a, done, rfl⟩ : ∃ a done', done = a :: done' := by
        cases done with
        | nil => cases (List.cons.inj h).1
        | cons a done => exact ⟨a, done, rfl⟩
      obtain ⟨e', hrest, hcategory⟩ := ih (m := m.appendAll [r]) (position + 1) (models_put hm _)
        hopen (List.cons.inj h).2 (List.forall_mem_cons.mp hdone).2
      rw [hcheck] at hwords
      have hfirst : r.check m.columns (.int position) = .ok s := mapError_eq_ok_iff.mp hwords
      refine ⟨e', ?_, hcategory⟩
      rw [Model.checkRows, hfirst]
      show (Model.checkRows m.columns (position + 1) rows >>= fun rest => pure (s :: rest)) = _
      rw [Model.columns_appendAll] at hrest
      rw [hrest]
      rfl

/-- **A batch does what its rows do one by one.** If every row is accepted by itself, the batch is
accepted and leaves the same workspace. If a row is refused, the batch is refused with an error of the same
category, and changes nothing. -/
theorem call_batch_of_rowCalls (hm : w.models[i]? = some m) (hopen : m.frozen = false)
    (hgiven : ∀ r ∈ rows, r.IsGiven) (hsize : Model.entryCount rows ≤ Int64.maxValue.toInt) :
    ((∀ a ∈ w.answers (rowCalls i rows), a = .ok none) →
      w.call (batchCall i rows) = (w.run (rowCalls i rows), .ok none)) ∧
    (∀ done e rest, w.answers (rowCalls i rows) = done ++ .error e :: rest →
      (∀ a ∈ done, a = .ok none) →
      ∃ e', w.call (batchCall i rows) = (w, .error e') ∧ e'.category = e.category) := by
  have happly : ((Model.Batch.ofRows rows).edit rows.length).apply m w.cache =
      (w.cache, ((Model.checkRows m.columns 0 rows).map m.appendAll).map (·, none)) := by
    rw [Model.Batch.edit, Edit.apply_rows, Model.addRows_ofRows hopen hgiven hsize]
  constructor
  · intro haccepted
    have hfits := (answers_rowCalls hm hopen).mp haccepted
    rw [run_rowCalls hm hopen hfits]
    refine call_accepted hm ?_
    rw [happly, Model.checkRows_eq_ok_iff.mpr ⟨rfl, hfits⟩]
    rfl
  · intro done e rest hanswers hdone
    obtain ⟨e', hcheck, hcategory⟩ := checkRows_of_answers 0 hm hopen hanswers hdone
    refine ⟨e', call_refused hm ?_, hcategory⟩
    rw [happly, hcheck]
    rfl

/-- On two columns, the rows `x₁ + x₀ ≤ 1` and `0 ≤ 0` are added as a batch, and the rows `x₁ + x₀ ≤ 1` and
`x₂ ≤ 1` are refused. -/
theorem call_batch_of_two_rows :
    let one := Binary64.one
    let w : Workspace := ⟨[Model.blank 2 0 Binary64.infinity], RowCache.empty .digest⟩
    let r : BoundedRow := ⟨.ofArrays [1, 0] [one, one], Binary64.negInfinity, one⟩
    let empty : BoundedRow := ⟨.ofArrays [] [], Binary64.zero, Binary64.zero⟩
    let wide : BoundedRow := ⟨.ofArrays [2] [one], Binary64.zero, one⟩
    w.call (batchCall 0 [r, empty]) = (w.run (rowCalls 0 [r, empty]), .ok none) ∧
      ∃ e, w.call (batchCall 0 [r, wide]) = (w, .error e) ∧ e.category = .indexOutOfRange := by
  intro one w r empty wide
  have hgiven : ∀ s ∈ [r, empty], s.IsGiven := by decide +kernel
  have hgiven' : ∀ s ∈ [r, wide], s.IsGiven := by decide +kernel
  have hfits : ∀ s ∈ [r, empty], s.Fits (Model.blank 2 0 Binary64.infinity).columns := by
    decide +kernel
  have hwide : wide.check 2 .absent = .error (.indexRange (.int 2) 2 2 .absent) := rfl
  constructor
  · exact (call_batch_of_rowCalls (m := Model.blank 2 0 Binary64.infinity) rfl rfl hgiven
      (by decide +kernel)).1 ((answers_rowCalls rfl rfl).mpr hfits)
  · have hr := call_row_accepted (w := w) (i := 0) (m := Model.blank 2 0 Binary64.infinity) rfl rfl
      (BoundedRow.check_eq_ok_iff.mpr ⟨rfl, hfits r List.mem_cons_self⟩)
    have hanswers : w.answers (rowCalls 0 [r, wide]) =
        [.ok none] ++ .error (.indexRange (.int 2) 2 2 .absent) :: [] := by
      show [(w.call (.edit 0 r.edit)).2, ((w.call (.edit 0 r.edit)).1.call (.edit 0 wide.edit)).2] = _
      rw [hr, call_row_refused rfl rfl hwide]
      rfl
    exact (call_batch_of_rowCalls (m := Model.blank 2 0 Binary64.infinity) rfl rfl hgiven'
      (by decide +kernel)).2 _ _ _ hanswers (by simp)

end Workspace

end Milp
