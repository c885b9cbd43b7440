import Milp.Instance.Loading
import Milp.Proofs.Batch.Sequential
import Milp.Proofs.Instance.Generated
import Milp.Proofs.Row.Dense

/-!
# The edits of an instance

An instance in order is loaded by the edits that its parts suggest: vectors and rows go into the arguments as they
are. Bounds within infinity are not moved, and a row that fits is spread over its full vector.

* `toArg_vector` — a vector as an argument is a flat list.
* `BoundedRow.within` — a row whose bounds have been moved within the infinity of a model.
* `columnEdits_within`, `rowEdit_within` and `batchEdit_given` — the edits, in every mode: `rowEdits_given`.
-/

namespace Milp

/-! ## Vectors as arguments -/

theorem Grid.chunks_one {α : Type} (xs : List α) : Grid.chunks 1 xs.length xs = xs.map fun x => [x] := by
  induction xs with
  | nil => rfl
  | cons x rest ih =>
    show (x :: rest).take 1 :: Grid.chunks 1 rest.length ((x :: rest).drop 1) = _
    rw [List.drop_one, List.tail_cons, ih]
    rfl

theorem Grid.toArg_vector {α : Type} (f : α → Arg) (xs : List α) : (Grid.vector xs).toArg f = .list (xs.map f) := by
  show Arg.list ((Grid.chunks 1 xs.length xs).map (Grid.nest f [])) = _
  rw [Grid.chunks_one, List.map_map]
  rfl

theorem Grid.numberArg_vector (xs : List Binary64) : (Grid.vector xs).numberArg = .ofFloats xs :=
  Grid.toArg_vector .float xs

theorem Grid.positionArg_vector (xs : List Int64) : (Grid.vector xs).positionArg = .ofPositions xs :=
  Grid.toArg_vector _ xs

/-- Flags as an argument. -/
def Arg.ofFlags (bs : List Bool) : Arg := .list (bs.map .flag)

/-- A list of flags is read back. -/
theorem flagVector_ofFlags (bs : List Bool) : flagVector (.ofFlags bs) bs.length = .ok bs := by
  have hentries : (Arg.ofFlags bs).entries = bs.map .flag := Arg.entriesOf_map (fun _ => rfl) bs
  have hshape : (Arg.ofFlags bs).shape? = some [bs.length] := Arg.shape?_map (fun _ => rfl) bs
  have hread : (bs.map Arg.flag).mapM (fun e => (.ok e.toFlag : Except Error Bool)) = .ok bs := by
    rw [mapM_eq_ok_iff, List.forall₂_map_left_iff, List.forall₂_same]
    exact fun b _ => rfl
  simp only [flagVector, Arg.flagArray, Arg.array, hshape, hentries, hread]
  exact if_pos rfl

/-! ## Bounds -/

namespace Binary64

variable {x : Binary64}

theorem maximum_negInfinity (hx : x.isNaN = false) : x.maximum negInfinity = x := by
  obtain ⟨a, ha⟩ := exists_place?_of_not_isNaN hx
  exact maximum_of_le (le_iff.mpr ⟨_, _, rfl, ha, (place?_bounds ha).1⟩)

theorem minimum_infinity (hx : x.isNaN = false) : x.minimum infinity = x := by
  obtain ⟨a, ha⟩ := exists_place?_of_not_isNaN hx
  exact minimum_of_le (le_iff.mpr ⟨_, _, ha, rfl, (place?_bounds ha).2⟩)

end Binary64

/-- **A row within infinity**: bounds that lie beyond it are moved to it. -/
def BoundedRow.within (I : Binary64) (r : BoundedRow) : BoundedRow :=
  ⟨r.row, if r.lo.lt I.neg then I.neg else r.lo, if I.lt r.hi then I else r.hi⟩

theorem GivenRow.lower_float (I lo : Binary64) :
    GivenRow.lower I (.float lo) = .ok (.float (if lo.lt I.neg then I.neg else lo)) := by
  show Except.ok (if lo.lt I.neg = true then Arg.float I.neg else .float lo) = _
  split <;> rfl

theorem GivenRow.upper_float (I hi : Binary64) :
    GivenRow.upper I (.float hi) = .ok (.float (if I.lt hi then I else hi)) := by
  show Except.ok (if I.lt hi = true then Arg.float I else .float hi) = _
  split <;> rfl

/-- Nothing lies beyond the infinities. -/
theorem BoundedRow.within_infinity (r : BoundedRow) : r.within Binary64.infinity = r := by
  rw [within, show Binary64.infinity.neg = Binary64.negInfinity from rfl, if_neg (Binary64.not_lt_negInfinity r.lo),
    if_neg (Binary64.not_infinity_lt r.hi)]

/-! ## Full vectors -/

theorem mapM_position? {is : List Int64} {n : ℕ} (h : ∀ i ∈ is, 0 ≤ i.toInt ∧ i.toInt < n) :
    is.mapM (GivenRow.position? n) = some (is.map fun i => i.toInt.toNat) := by
  induction is with
  | nil => rfl
  | cons i rest ih =>
    obtain ⟨⟨hlow, hhigh⟩, hrest⟩ := List.forall_mem_cons.mp h
    have hposition : GivenRow.position? n i = some i.toInt.toNat := by
      unfold GivenRow.position?
      rw [if_neg (not_lt.mpr hlow)]
      exact if_pos ⟨hlow, hhigh⟩
    rw [List.mapM_cons, hposition, ih hrest]
    rfl

/-- **A row that fits is spread over its full vector.** -/
theorem spread_given {r : BoundedRow} {n : ℕ} (hr : r.row.Fits n) : r.given.spread n = .ok (r.row.scatter n) := by
  have hpositions : r.given.indices.entries.mapM (GivenRow.position? n) =
      some (r.row.indices.map fun i => i.toInt.toNat) := mapM_position? hr.inRange
  have hcoeffs : r.given.coeffs.stretch? r.given.indices.shape = some r.row.coeffs := by
    show (Grid.vector r.row.coeffs).stretch? [r.row.indices.length] = _
    rw [hr.lengths]
    exact Grid.stretch?_vector r.row.coeffs
  unfold GivenRow.spread
  rw [hpositions, hcoeffs]
  show Except.ok (List.foldl _ _ ((r.row.indices.map fun i => i.toInt.toNat).zip r.row.coeffs)) = _
  rw [List.zip_map_left, List.foldl_map]
  rfl

/-! ## Rows one by one -/

/-- The edit that adds a row in a mode. -/
def BoundedRow.editIn (n : ℕ) (mode : Mode) (r : BoundedRow) : Edit :=
  match mode with
  | .dense => .denseRow (.ofFloats (r.row.scatter n)) (.float r.lo) (.float r.hi)
  | .cached => .cachedRow (.ofFloats r.row.coeffs) (.ofPositions r.row.indices) (.float r.lo) (.float r.hi)
  | _ => r.edit

/-- **Rows one by one are moved within infinity first.** -/
theorem rowEdit_within {r : BoundedRow} {n : ℕ} (hr : r.row.Fits n) (I : Binary64) (mode : Mode) :
    GivenInstance.rowEdit n I mode r.given = .ok ((r.within I).editIn n mode) := by
  have hlo : GivenRow.lower I r.given.lo = .ok (.float (r.within I).lo) := GivenRow.lower_float I r.lo
  have hhi : GivenRow.upper I r.given.hi = .ok (.float (r.within I).hi) := GivenRow.upper_float I r.hi
  have hcoeffs : r.given.coeffs.numberArg = .ofFloats r.row.coeffs := Grid.numberArg_vector _
  have hindices : r.given.indices.positionArg = .ofPositions r.row.indices := Grid.positionArg_vector _
  unfold GivenInstance.rowEdit
  rw [hlo, hhi, hcoeffs, hindices, spread_given hr]
  cases mode <;> rfl

/-! ## Rows in one batch -/

theorem offsets_given (first : Int64) (rows : List BoundedRow) :
    GivenInstance.offsets first (rows.map BoundedRow.given) =
      .ok (Instance.offsetsFrom first (rows.map fun r => r.row)) := by
  induction rows generalizing first with
  | nil => rfl
  | cons r rest ih =>
    show (GivenInstance.offsets (first + Int64.ofNat r.row.indices.length) (rest.map BoundedRow.given) >>= fun starts =>
      pure (first :: starts)) = _
    rw [ih]
    rfl

/-- Vectors joined into one. -/
theorem joined_vectors {α : Type} (xss : List (List α)) :
    GivenInstance.joined (xss.map Grid.vector) = .ok (.vector xss.flatten) := by
  cases xss with
  | nil => rfl
  | cons xs rest =>
    have hall : ((xs :: rest).map Grid.vector).all (fun h => !h.shape.isEmpty && decide (h.shape.drop 1 = [])) =
        true := by
      rw [List.all_eq_true]
      intro g hg
      obtain ⟨ys, -, rfl⟩ := List.mem_map.mp hg
      rfl
    have hlength : ∀ (yss : List (List α)) (k : ℕ),
        ((yss.map Grid.vector).map fun h => h.shape.headD 0).foldl (· + ·) k = k + yss.flatten.length := by
      intro yss
      induction yss with
      | nil => exact fun k => rfl
      | cons ys rest ih =>
        intro k
        show ((rest.map Grid.vector).map _).foldl (· + ·) (k + ys.length) = _
        rw [ih, List.flatten_cons, List.length_append, Nat.add_assoc]
    have hentries : ((xs :: rest).map Grid.vector).flatMap Grid.entries = (xs :: rest).flatten := by
      rw [List.flatMap_map]
      exact List.flatMap_id
    have hjoin : Grid.join? ((xs :: rest).map Grid.vector) = some (.vector (xs :: rest).flatten) := by
      show (if ((xs :: rest).map Grid.vector).all (fun h => !h.shape.isEmpty && decide (h.shape.drop 1 = [])) = true
        then some (⟨_ :: [], _⟩ : Grid α) else none) = _
      rw [if_pos hall, hentries, hlength, Nat.zero_add]
      rfl
    unfold GivenInstance.joined
    rw [hjoin]
    rfl

namespace Instance

variable {p : Instance}

/-- **The edit that adds all rows at once.** -/
theorem batchEdit_given (p : Instance) :
    p.given.batchEdit = .ok ((Model.Batch.ofRows p.rows).edit p.rows.length) := by
  have hindices : p.given.rows.map GivenRow.indices = (p.rows.map fun r => r.row.indices).map Grid.vector := by
    show (p.rows.map BoundedRow.given).map _ = _
    rw [List.map_map, List.map_map]
    rfl
  have hcoeffs : p.given.rows.map GivenRow.coeffs = (p.rows.map fun r => r.row.coeffs).map Grid.vector := by
    show (p.rows.map BoundedRow.given).map _ = _
    rw [List.map_map, List.map_map]
    rfl
  have hlower : Arg.list (p.given.rows.map GivenRow.lo) = .ofFloats (p.rows.map fun r => r.lo) := by
    show Arg.list ((p.rows.map BoundedRow.given).map _) = Arg.list _
    rw [List.map_map, List.map_map]
    rfl
  have hupper : Arg.list (p.given.rows.map GivenRow.hi) = .ofFloats (p.rows.map fun r => r.hi) := by
    show Arg.list ((p.rows.map BoundedRow.given).map _) = Arg.list _
    rw [List.map_map, List.map_map]
    rfl
  have hcount : p.given.rows.length = p.rows.length := List.length_map _
  unfold GivenInstance.batchEdit
  rw [hindices, hcoeffs, hlower, hupper, hcount, joined_vectors, joined_vectors, Arg.numberArray_ofFloats,
    Arg.numberArray_ofFloats]
  show (GivenInstance.offsets 0 (p.rows.map BoundedRow.given) >>= fun starts => Except.ok (Edit.rows
    (.int p.rows.length) (Grid.vector starts).positionArg
    (Grid.vector (p.rows.map fun r => r.row.indices).flatten).positionArg
    (Grid.vector (p.rows.map fun r => r.row.coeffs).flatten).numberArg
    (Grid.vector (p.rows.map fun r => r.lo)).numberArg (Grid.vector (p.rows.map fun r => r.hi)).numberArg)) = _
  rw [offsets_given, Grid.positionArg_vector, Grid.numberArg_vector, Grid.numberArg_vector, Grid.numberArg_vector]
  show Except.ok (Edit.rows _ (Grid.vector _).positionArg _ _ _ _) = _
  rw [Grid.positionArg_vector, ← List.flatMap_def, ← List.flatMap_def]
  rfl

/-! ## All edits -/

/-- The edits that add the rows of an instance. -/
def rowEdits (p : Instance) (mode : Mode) : List Edit :=
  match mode with
  | .batch => [(Model.Batch.ofRows p.rows).edit p.rows.length]
  | mode => p.rows.map (BoundedRow.editIn p.columns mode)

/-- **Rows one by one**, each moved within infinity. -/
theorem rowEdits_within (hrows : ∀ r ∈ p.rows, r.row.Fits p.columns) (I : Binary64) {mode : Mode}
    (hmode : mode ≠ .batch) : p.given.rowEdits I mode =
      ((p.rows.map (BoundedRow.within I)).map (BoundedRow.editIn p.columns mode)).map .ok := by
  have hedits : (p.rows.map BoundedRow.given).map (GivenInstance.rowEdit p.columns I mode) =
      ((p.rows.map (BoundedRow.within I)).map (BoundedRow.editIn p.columns mode)).map .ok := by
    rw [List.map_map, List.map_map, List.map_map]
    exact List.map_congr_left fun r hr => rowEdit_within (hrows r hr) I mode
  cases mode with
  | batch => exact absurd rfl hmode
  | dense | sparse | cached => exact hedits

/-- **The rows in one batch**, as they are. -/
theorem rowEdits_batch (p : Instance) (I : Binary64) : p.given.rowEdits I .batch = (p.rowEdits .batch).map .ok := by
  show [p.given.batchEdit] = _
  rw [batchEdit_given]
  rfl

theorem rowEdits_given (hp : p.WellFormed) (mode : Mode) :
    p.given.rowEdits Binary64.infinity mode = (p.rowEdits mode).map .ok := by
  have hrows (hmode : mode ≠ .batch) : p.given.rowEdits Binary64.infinity mode =
      (p.rows.map (BoundedRow.editIn p.columns mode)).map .ok := by
    rw [rowEdits_within (fun r hr => (hp.rows_fit r hr).row) _ hmode,
      show BoundedRow.within Binary64.infinity = id from funext BoundedRow.within_infinity, List.map_id]
  cases mode with
  | batch => exact rowEdits_batch p _
  | dense | sparse | cached => exact hrows (by decide)

/-- The edits that set up the columns of an instance with given upper bounds and flags. -/
def columnEdits (p : Instance) (us : List Binary64) (bs : List Bool) : List Edit :=
  [.objective (.ofFloats p.objective), .columnBounds (.ofFloats p.lower) (.ofFloats us), .columnInteger (.ofFlags bs)]

/-- **The columns, moved within infinity**; lower bounds that lie there stay as they are. -/
theorem columnEdits_within {us : List Binary64} {bs : List Bool} (hus : p.upper = .vector us)
    (hbs : p.integer = .vector bs) {I : Binary64} (hlower : ∀ x ∈ p.lower, x.maximum I.neg = x) :
    p.given.columnEdits I = p.columnEdits (us.map fun x => x.minimum I) bs := by
  have hlos : (p.lower.map fun x => x.maximum I.neg) = p.lower := (List.map_congr_left hlower).trans (List.map_id _)
  show [Edit.objective (Grid.vector p.objective).numberArg,
    .columnBounds ((Grid.vector p.lower).map _).numberArg (p.upper.map _).numberArg,
    .columnInteger (p.integer.toArg .flag)] = _
  rw [hus, hbs, Grid.map_vector, Grid.map_vector, hlos, Grid.numberArg_vector, Grid.numberArg_vector,
    Grid.numberArg_vector, Grid.toArg_vector]
  rfl

theorem columnEdits_given {us : List Binary64} {bs : List Bool} (hus : p.upper = .vector us)
    (hbs : p.integer = .vector bs) (hlower : ∀ x ∈ p.lower, x.isNaN = false) (hupper : ∀ x ∈ us, x.isNaN = false) :
    p.given.columnEdits Binary64.infinity = p.columnEdits us bs := by
  have hhis : (us.map fun x => x.minimum Binary64.infinity) = us :=
    (List.map_congr_left fun x hx => Binary64.minimum_infinity (hupper x hx)).trans (List.map_id _)
  have hlos : ∀ x ∈ p.lower, x.maximum Binary64.infinity.neg = x := fun x hx =>
    Binary64.maximum_negInfinity (hlower x hx)
  rw [columnEdits_within hus hbs hlos, hhis]

end Instance

end Milp
