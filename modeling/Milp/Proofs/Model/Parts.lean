import Milp.Model.Edit
import Milp.Proofs.Model.Columns

/-!
# Parts of a model

A model has a frame, which edits leave as it is, and five parts. Every edit is about one of them: it changes no
other part, and it looks at no part at all, not even at its own. What it comes to is decided by the frame and, for
rows, by the row cache.

* `Part` and `Edit.part` — the five parts, and the one that an edit is about.
* `Model.frame` and `Model.part` — a model is its frame and its parts (`eq_of_parts`); `Model.withPart` — it may take a
  part from another model.
* `Edit.apply_frame` — an edit does to a model what it does to its frame.
* `Edit.apply_cache` — only rows have to do with the cache.
-/

namespace Milp

/-- **The parts of a model** that edits change. Both bounds of the columns are one part. -/
inductive Part where
  | objective
  | bounds
  | start
  | integer
  | rows
  deriving DecidableEq

/-- What a part of a model holds. -/
def Part.Content : Part → Type
  | objective => List Binary64
  | bounds => List Binary64 × List Binary64
  | start => Option (List Binary64)
  | integer => List Bool
  | rows => List BoundedRow

/-- The part that an edit is about. -/
def Edit.part : Edit → Part
  | objective _ => .objective
  | columnBounds _ _ => .bounds
  | columnStart _ => .start
  | columnInteger _ => .integer
  | denseRow _ _ _ | sparseRow _ _ _ _ | cachedRow _ _ _ _ | rows _ _ _ _ _ _ => .rows

namespace Model

/-- **The frame of a model**: its parts are as they were when it was made. -/
def frame (m : Model) : Model := { blank m.columns m.rowsHint m.infinity with frozen := m.frozen }

/-- **A part of a model.** -/
def part (m : Model) : (p : Part) → p.Content
  | .objective => m.objective
  | .bounds => (m.lower, m.upper)
  | .start => m.start
  | .integer => m.integer
  | .rows => m.rows

/-- **A model with one part of another model.** Rows come behind those that the model has. -/
def withPart (m : Model) (p : Part) (b : Model) : Model :=
  match p with
  | .objective => { m with objective := b.objective }
  | .bounds => { m with lower := b.lower, upper := b.upper }
  | .start => { m with start := b.start }
  | .integer => { m with integer := b.integer }
  | .rows => { m with rows := m.rows ++ b.rows }

section

variable {m m' : Model}

theorem columns_eq_of_frame (h : m.frame = m'.frame) : m.columns = m'.columns := by
  show m.frame.columns = m'.frame.columns
  rw [h]

theorem infinity_eq_of_frame (h : m.frame = m'.frame) : m.infinity = m'.infinity := by
  show m.frame.infinity = m'.frame.infinity
  rw [h]

/-- **A model is its frame and its parts.** -/
theorem eq_of_parts (hframe : m.frame = m'.frame) (hparts : ∀ p, m.part p = m'.part p) : m = m' := by
  obtain ⟨hlower, hupper⟩ := Prod.mk.inj (hparts .bounds)
  have hobjective : m.objective = m'.objective := hparts .objective
  have hstart : m.start = m'.start := hparts .start
  have hinteger : m.integer = m'.integer := hparts .integer
  have hrows : m.rows = m'.rows := hparts .rows
  calc m = { m.frame with
        lower := m.lower, upper := m.upper, objective := m.objective, integer := m.integer
        start := m.start, rows := m.rows } := rfl
    _ = { m'.frame with
        lower := m'.lower, upper := m'.upper, objective := m'.objective, integer := m'.integer
        start := m'.start, rows := m'.rows } := by
      rw [hframe, hlower, hupper, hobjective, hinteger, hstart, hrows]
    _ = m' := rfl

end

/-! ## Edits of the frame -/

variable (m : Model)

theorem setObjective_frame (coeffs : Arg) :
    (m.frame.setObjective coeffs).map (m.withPart .objective) = m.setObjective coeffs := by
  have hsettles := fun m => (Operation.settles_setObjective m coeffs).outcome_eq
  simp only [setObjective, hsettles, map_whenMutable, map_bind, map_pure]
  rfl

theorem setColumnStart_frame (values : Arg) :
    (m.frame.setColumnStart values).map (m.withPart .start) = m.setColumnStart values := by
  have hsettles := fun m => (Operation.settles_setColumnStart m values).outcome_eq
  simp only [setColumnStart, hsettles, map_whenMutable, map_bind, map_pure]
  rfl

theorem setColumnInteger_frame (flags : Arg) :
    (m.frame.setColumnInteger flags).map (m.withPart .integer) = m.setColumnInteger flags := by
  have hsettles := fun m => (Operation.settles_setColumnInteger m flags).outcome_eq
  simp only [setColumnInteger, hsettles, map_whenMutable, map_bind, map_pure]
  rfl

theorem setColumnBounds_frame (lower upper : Arg) :
    (m.frame.setColumnBounds lower upper).map (m.withPart .bounds) = m.setColumnBounds lower upper := by
  have hsettles := fun m => (Operation.settles_setColumnBounds m lower upper).outcome_eq
  rw [setColumnBounds, setColumnBounds, hsettles, hsettles, map_whenMutable]
  show m.whenMutable _ = m.whenMutable _
  congr 1
  simp only [map_bind]
  refine bind_congr fun los => bind_congr fun his => ?_
  -- the three checks come one after the other
  have hinfinity : m.frame.infinity = m.infinity := rfl
  rw [hinfinity]
  cases los.any fun x => m.infinity.le x with
  | true => rfl
  | false =>
    cases his.any fun x => x.le m.infinity.neg with
    | true => rfl
    | false => cases crossedBounds los his <;> rfl

theorem addDenseRow_frame (coeffs lo hi : Arg) :
    (m.frame.addDenseRow coeffs lo hi).map (m.withPart .rows) = m.addDenseRow coeffs lo hi := by
  have hsettles := fun m => (Operation.settles_addDenseRow m coeffs lo hi).outcome_eq
  simp only [addDenseRow, hsettles, map_whenMutable, map_bind]
  rfl

theorem addSparseRow_frame (coeffs indices lo hi : Arg) :
    (m.frame.addSparseRow coeffs indices lo hi).map (m.withPart .rows) =
      m.addSparseRow coeffs indices lo hi := by
  have hsettles := fun m => (Operation.settles_addSparseRow m coeffs indices lo hi).outcome_eq
  simp only [addSparseRow, hsettles, map_whenMutable, map_bind]
  rfl

theorem addRows_frame (rowCount starts indices coeffs lower upper : Arg) :
    (m.frame.addRows rowCount starts indices coeffs lower upper).map (m.withPart .rows) =
      m.addRows rowCount starts indices coeffs lower upper := by
  have hsettles := fun m =>
    (Operation.settles_addRows m rowCount starts indices coeffs lower upper).outcome_eq
  simp only [addRows, hsettles, map_whenMutable, map_bind, map_pure]
  rfl

theorem addCachedRow_frame (cache : RowCache) (coeffs indices lo hi : Arg) :
    m.addCachedRow cache coeffs indices lo hi =
      ((m.frame.addCachedRow cache coeffs indices lo hi).1,
        (m.frame.addCachedRow cache coeffs indices lo hi).2.map fun p => (m.withPart .rows p.1, p.2)) := by
  have hread : m.frame.readCachedRow coeffs indices lo hi = m.readCachedRow coeffs indices lo hi := rfl
  rw [addCachedRow_eq, addCachedRow_eq, hread]
  cases m.readCachedRow coeffs indices lo hi with
  | error e => rfl
  | ok given =>
    obtain ⟨row, lo, hi⟩ := given
    have hvalidator : m.frame.validator = m.validator := rfl
    simp only [hvalidator]
    generalize cache.getOrInsert m.validator (.ofRow row) = answer
    obtain ⟨cache', result⟩ := answer
    cases result with
    | error e => rfl
    | ok found =>
      obtain ⟨stored, hit⟩ := found
      have hcolumns : m.frame.columns = m.columns := rfl
      simp only [hcolumns]
      split <;> rfl

end Model

namespace Edit

variable (e : Edit) (m : Model) (cache : RowCache)

/-- **An edit looks at the frame of a model only**, and puts what it makes of it into its part. -/
theorem apply_frame : e.apply m cache =
    ((e.apply m.frame cache).1, (e.apply m.frame cache).2.map fun b => (m.withPart e.part b.1, b.2)) := by
  -- seven of the eight edits do not touch the cache
  have plain : ∀ {p : Part} {step step' : Except Error Model}, step'.map (m.withPart p) = step →
      (cache, step.map (·, (none : Option Bool))) =
        (cache, (step'.map (·, (none : Option Bool))).map fun b => (m.withPart p b.1, b.2)) := by
    intro p step step' hstep
    rw [← hstep]
    cases step' <;> rfl
  cases e with
  | objective coeffs =>
    rw [apply_objective, apply_objective]
    exact plain (m.setObjective_frame coeffs)
  | columnBounds lower upper =>
    rw [apply_columnBounds, apply_columnBounds]
    exact plain (m.setColumnBounds_frame lower upper)
  | columnStart values =>
    rw [apply_columnStart, apply_columnStart]
    exact plain (m.setColumnStart_frame values)
  | columnInteger flags =>
    rw [apply_columnInteger, apply_columnInteger]
    exact plain (m.setColumnInteger_frame flags)
  | denseRow coeffs lo hi =>
    rw [apply_denseRow, apply_denseRow]
    exact plain (m.addDenseRow_frame coeffs lo hi)
  | sparseRow coeffs indices lo hi =>
    rw [apply_sparseRow, apply_sparseRow]
    exact plain (m.addSparseRow_frame coeffs indices lo hi)
  | rows rowCount starts indices coeffs lower upper =>
    rw [apply_rows, apply_rows]
    exact plain (m.addRows_frame rowCount starts indices coeffs lower upper)
  | cachedRow coeffs indices lo hi =>
    simp only [apply_cachedRow, m.addCachedRow_frame cache coeffs indices lo hi]
    cases (m.frame.addCachedRow cache coeffs indices lo hi).2 <;> rfl

variable {e m cache} in
/-- **An accepted edit changes one part.** -/
theorem exists_withPart {m' : Model} {hit : Option Bool} (h : (e.apply m cache).2 = .ok (m', hit)) :
    ∃ b, m' = m.withPart e.part b := by
  rw [apply_frame] at h
  obtain ⟨b, -, hb⟩ := map_eq_ok_iff.mp h
  exact ⟨b.1, (congrArg Prod.fst hb).symm⟩

/-- **An edit of a column vector has nothing to do with the cache.** -/
theorem apply_cache {e : Edit} (he : e.part ≠ .rows) (m : Model) (cache cache' : RowCache) :
    e.apply m cache = (cache, (e.apply m cache').2) := by
  cases e with
  | objective coeffs => rw [apply_objective, apply_objective]
  | columnBounds lower upper => rw [apply_columnBounds, apply_columnBounds]
  | columnStart values => rw [apply_columnStart, apply_columnStart]
  | columnInteger flags => rw [apply_columnInteger, apply_columnInteger]
  | denseRow | sparseRow | cachedRow | rows => exact absurd rfl he

end Edit

end Milp
