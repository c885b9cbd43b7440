import Milp.Model.Edit
import Milp.Proofs.Steps

/-!
# What operations come to

Every operation on a model decides what to make of it before it changes anything. So a refused operation leaves the
model as it was, and an operation is known by its decisions.

* `Operation.Settles` — an operation comes to a decision first. Checks may stand before any other step,
  `Settles.check_bind`; so all operations on a model settle, from `settles_setObjective` to `settles_addRows`.
* `Model.setObjective` to `Model.addRows` — the model that an accepted operation makes.
* `Operation.applied` — what an operation on a bench comes to, and `Operation.SparesModel` — if it is refused, the
  model stays as it was: `sparesModel_addCachedRow`.
* `Edit.apply` — what an edit comes to, and `Edit.perform_eq` — refused, it leaves the model as it was.
-/

namespace Milp

variable {σ α β : Type}

namespace Operation

/-! ## Steps -/

theorem perform_bind (op : Operation σ α) (f : α → Operation σ β) (s : σ) :
    (op >>= f).perform s = match op.perform s with
      | (s', .ok a) => (f a).perform s'
      | (s', .error e) => (s', .error e) := by
  show (ExceptT.bindCont f (op.run s).1 (op.run s).2 : Except Error β × σ).swap =
    match ((op.run s).2, (op.run s).1) with
    | (s', .ok a) => (f a).perform s'
    | (s', .error e) => (s', .error e)
  cases (op.run s).1 <;> rfl

@[simp] theorem perform_get (s : σ) : (get : Operation σ σ).perform s = (s, .ok s) := rfl

@[simp] theorem perform_lift (x : Except Error α) (s : σ) : (liftM x : Operation σ α).perform s = (s, x) := by
  cases x <;> rfl

theorem perform_onModel (op : Operation Model α) (b : Bench) :
    (onModel op).perform b = ({ b with model := (op.perform b.model).1 }, (op.perform b.model).2) := by
  rw [onModel, perform_bind, perform_get]
  dsimp only
  generalize op.perform b.model = after
  obtain ⟨m, answer⟩ := after
  cases answer <;> rfl

theorem perform_onCache (work : RowCache → RowCache × Except Error α) (b : Bench) :
    (onCache work).perform b = ({ b with cache := (work b.cache).1 }, (work b.cache).2) := by
  rw [onCache, perform_bind, perform_get]
  dsimp only
  generalize work b.cache = after
  obtain ⟨cache, answer⟩ := after
  cases answer <;> rfl

/-! ## Decisions -/

/-- A state after a decision: the new state, or the old one and a refusal. -/
def settle (s : σ) : Except Error σ → σ × Except Error Unit
  | .ok s' => (s', .ok ())
  | .error e => (s, .error e)

/-- **`op.Settles s x`** — carried out on `s`, the operation decides on `x` before it changes anything. -/
def Settles (op : Operation σ Unit) (s : σ) (x : Except Error σ) : Prop := op.perform s = settle s x

/-- **What an operation makes of a state**, if it does not refuse. -/
def outcome (op : Operation σ Unit) (s : σ) : Except Error σ := (op.perform s).2.map fun _ => (op.perform s).1

section Settles

variable {s : σ} {op : Operation σ Unit}

theorem Settles.outcome_eq {x : Except Error σ} (h : op.Settles s x) : op.outcome s = x := by
  rw [outcome, h]
  cases x <;> rfl

theorem Settles.self {x : Except Error σ} (h : op.Settles s x) : op.Settles s (op.outcome s) := by
  rw [h.outcome_eq]
  exact h

theorem settles_modify (f : σ → σ) : (modify f : Operation σ Unit).Settles s (.ok (f s)) := rfl

theorem settles_throw (e : Error) : (throw e : Operation σ Unit).Settles s (.error e) := rfl

/-- Looking at the state changes nothing. -/
theorem Settles.get_bind {f : σ → Operation σ Unit} {x : Except Error σ} (h : (f s).Settles s x) :
    (get >>= f).Settles s x := h

/-- **A check changes nothing**, so that all decisions after it are still to be made. -/
theorem Settles.check_bind {check : Except Error α} {f : α → Operation σ Unit} {g : α → Except Error σ}
    (h : ∀ a, (f a).Settles s (g a)) : ((liftM check : Operation σ α) >>= f).Settles s (check >>= g) := by
  cases check with
  | error e => rfl
  | ok a => exact h a

end Settles

end Operation

/-- A step on a model, which a frozen model refuses. -/
def Model.whenMutable (m : Model) (step : Except Error α) : Except Error α := m.checkMutable >>= fun _ => step

/-! ## Operations on a model -/

namespace Operation

variable (m : Model)

theorem settles_setObjective (coeffs : Arg) : (setObjective coeffs).Settles m (m.whenMutable do
    let objective ← numberVector coeffs (.int m.columns) "objective"
    checkFinite objective "objective"
    return { m with objective := objective }) :=
  .get_bind (.check_bind fun _ => .check_bind fun _ => .check_bind fun _ => settles_modify _)

theorem settles_setColumnBounds (lower upper : Arg) : (setColumnBounds lower upper).Settles m (m.whenMutable do
    let los ← numberVector lower (.int m.columns) "column lower bounds"
    let his ← numberVector upper (.int m.columns) "column upper bounds"
    if los.any fun x => m.infinity.le x then throw .columnLowerInfinite
    if his.any fun x => x.le m.infinity.neg then throw .columnUpperInfinite
    match Model.crossedBounds los his with
    | (column, lo, hi) :: rest => throw (.columnBoundsCrossed column lo hi (rest.length + 1))
    | [] =>
      return { m with
        lower := los.map fun x => x.maximum m.infinity.neg
        upper := his.map fun x => x.minimum m.infinity }) := by
  refine .get_bind (.check_bind fun _ => .check_bind fun los => .check_bind fun his => ?_)
  -- the three checks of the values come one after the other, and both vectors are replaced behind them
  cases los.any fun x => m.infinity.le x with
  | true => exact settles_throw _
  | false =>
    cases his.any fun x => x.le m.infinity.neg with
    | true => exact settles_throw _
    | false => cases Model.crossedBounds los his <;> rfl

theorem settles_setColumnStart (values : Arg) : (setColumnStart values).Settles m (m.whenMutable do
    let start ← numberVector values (.int m.columns) "column start values"
    checkFinite start "column start values"
    return { m with start := some start }) :=
  .get_bind (.check_bind fun _ => .check_bind fun _ => .check_bind fun _ => settles_modify _)

theorem settles_setColumnInteger (flags : Arg) : (setColumnInteger flags).Settles m (m.whenMutable do
    let integer ← flagVector flags m.columns
    return { m with integer := integer }) :=
  .get_bind (.check_bind fun _ => .check_bind fun _ => settles_modify _)

theorem settles_addDenseRow (coeffs lo hi : Arg) : (addDenseRow coeffs lo hi).Settles m (m.whenMutable do
    let dense ← numberVector coeffs (.int m.columns) "dense row"
    checkFinite dense "dense row"
    let (lo, hi) ← rowBounds lo hi
    return m.append (Row.ofDense dense) lo hi) :=
  .get_bind (.check_bind fun _ => .check_bind fun _ => .check_bind fun _ => .check_bind fun _ => settles_modify _)

theorem settles_addSparseRow (coeffs indices lo hi : Arg) :
    (addSparseRow coeffs indices lo hi).Settles m (m.whenMutable do
      let coeffs ← coefficientVector coeffs "sparse row coefficients"
      let indices ← indexVector indices "sparse row indices"
      checkPattern indices coeffs m.columns .absent
      let (lo, hi) ← rowBounds lo hi
      return m.append (.ofArrays indices coeffs) lo hi) :=
  .get_bind (.check_bind fun _ => .check_bind fun _ => .check_bind fun _ => .check_bind fun _ =>
    .check_bind fun _ => settles_modify _)

/-- Rows that have been checked are added one by one, and none of them is refused any more. -/
theorem settles_forM_append (rows : List BoundedRow) :
    (rows.forM fun r => append r.row r.lo r.hi).Settles m (.ok { m with rows := m.rows ++ rows }) := by
  induction rows generalizing m with
  | nil =>
    rw [List.append_nil]
    rfl
  | cons r rest ih =>
    have hrest := ih (m.append r.row r.lo r.hi)
    rw [Model.append, List.append_assoc] at hrest
    exact hrest

theorem settles_addRows (rowCount starts indices coeffs lower upper : Arg) :
    (addRows rowCount starts indices coeffs lower upper).Settles m (m.whenMutable do
      let rows ← m.checkedRows rowCount starts indices coeffs lower upper
      return { m with rows := m.rows ++ rows }) :=
  .get_bind (.check_bind fun _ => .check_bind fun _ => settles_forM_append m _)

end Operation

namespace Model

variable (m : Model)

/-- The model that setting the objective makes. -/
def setObjective (coeffs : Arg) : Except Error Model := (Operation.setObjective coeffs).outcome m

/-- The model that setting the bounds of all columns makes. -/
def setColumnBounds (lower upper : Arg) : Except Error Model := (Operation.setColumnBounds lower upper).outcome m

/-- The model that setting start values makes. -/
def setColumnStart (values : Arg) : Except Error Model := (Operation.setColumnStart values).outcome m

/-- The model that setting the integrality flags makes. -/
def setColumnInteger (flags : Arg) : Except Error Model := (Operation.setColumnInteger flags).outcome m

/-- The model that adding a full vector makes. -/
def addDenseRow (coeffs lo hi : Arg) : Except Error Model := (Operation.addDenseRow coeffs lo hi).outcome m

/-- The model that adding a row by columns and coefficients makes. -/
def addSparseRow (coeffs indices lo hi : Arg) : Except Error Model :=
  (Operation.addSparseRow coeffs indices lo hi).outcome m

/-- The model that adding a batch makes. -/
def addRows (rowCount starts indices coeffs lower upper : Arg) : Except Error Model :=
  (Operation.addRows rowCount starts indices coeffs lower upper).outcome m

end Model

/-! ## Operations on a bench -/

namespace Operation

/-- **What an operation on a bench comes to**: the cache, and if it does not refuse the model and the answer. -/
def applied (op : Operation Bench α) (m : Model) (cache : RowCache) : RowCache × Except Error (Model × α) :=
  let (b, answer) := op.perform ⟨m, cache⟩
  (b.cache, answer.map (b.model, ·))

/-- **The model is spared by refusals**, whatever has become of the cache. -/
def SparesModel (op : Operation Bench α) : Prop :=
  ∀ b e, (op.perform b).2 = .error e → (op.perform b).1.model = b.model

/-- The bench with the model `m` after it has come to something; a refusal leaves it that model. -/
def benchAfter (m : Model) : RowCache × Except Error (Model × α) → Bench × Except Error α
  | (cache, .ok (m', a)) => (⟨m', cache⟩, .ok a)
  | (cache, .error e) => (⟨m, cache⟩, .error e)

/-- Nothing else comes of an operation that spares the model than is told. -/
theorem SparesModel.perform_eq {op : Operation Bench α} (h : op.SparesModel) (m : Model) (cache : RowCache) :
    op.perform ⟨m, cache⟩ = benchAfter m (op.applied m cache) := by
  have hspared := h ⟨m, cache⟩
  rw [applied]
  generalize op.perform ⟨m, cache⟩ = after at hspared ⊢
  obtain ⟨⟨m', cache'⟩, answer⟩ := after
  cases answer with
  | error e =>
    obtain rfl : m' = m := hspared e rfl
    rfl
  | ok a => rfl

section After

variable {op : Operation Bench α}

theorem applied_of_perform {m : Model} {cache : RowCache} {x : RowCache × Except Error (Model × α)}
    (h : op.perform ⟨m, cache⟩ = benchAfter m x) : op.applied m cache = x := by
  rw [applied, h]
  obtain ⟨cache', result⟩ := x
  cases result <;> rfl

theorem sparesModel_of_perform {x : Model → RowCache → RowCache × Except Error (Model × α)}
    (h : ∀ m cache, op.perform ⟨m, cache⟩ = benchAfter m (x m cache)) : op.SparesModel := by
  rintro ⟨m, cache⟩ e
  rw [h]
  generalize x m cache = after
  obtain ⟨cache', result⟩ := after
  cases result with
  | error refusal => exact fun _ => rfl
  | ok answer => exact nofun

end After

/-- The answer may be put in other words. -/
theorem applied_bind_pure (op : Operation Bench α) (f : α → β) (m : Model) (cache : RowCache) :
    (op >>= fun a => pure (f a)).applied m cache =
      ((op.applied m cache).1, (op.applied m cache).2.map fun p => (p.1, f p.2)) := by
  simp only [applied, perform_bind]
  generalize op.perform ⟨m, cache⟩ = after
  obtain ⟨b, answer⟩ := after
  cases answer <;> rfl

theorem SparesModel.bind_pure {op : Operation Bench α} (h : op.SparesModel) (f : α → β) :
    (op >>= fun a => pure (f a)).SparesModel := by
  intro b e
  have hspared := h b
  rw [perform_bind]
  generalize op.perform b = after at hspared ⊢
  obtain ⟨b', answer⟩ := after
  cases answer with
  | error refusal => exact fun _ => hspared refusal rfl
  | ok a => exact nofun

section Settled

variable {op : Operation Model Unit}

/-- An operation on the model alone, with an answer that is known before. -/
theorem Settles.perform_onModel_bind {m : Model} {x : Except Error Model} (h : op.Settles m x) (cache : RowCache)
    (a : α) : (onModel op >>= fun _ => pure a).perform ⟨m, cache⟩ =
      benchAfter m (cache, (op.outcome m).map (·, a)) := by
  rw [perform_bind, perform_onModel, h.self]
  cases op.outcome m <;> rfl

theorem Settles.applied_onModel_bind {m : Model} {x : Except Error Model} (h : op.Settles m x) (cache : RowCache)
    (a : α) : (onModel op >>= fun _ => pure a).applied m cache = (cache, (op.outcome m).map (·, a)) :=
  applied_of_perform (h.perform_onModel_bind cache a)

theorem sparesModel_onModel_bind (h : ∀ m, op.Settles m (op.outcome m)) (a : α) :
    (onModel op >>= fun _ => pure a).SparesModel :=
  sparesModel_of_perform fun m cache => (h m).perform_onModel_bind cache a

end Settled

/-- **Adding a row through the cache**, step by step: only the last of them changes the model. -/
theorem perform_addCachedRow (m : Model) (cache : RowCache) (coeffs indices lo hi : Arg) :
    (addCachedRow coeffs indices lo hi).perform ⟨m, cache⟩ =
      benchAfter m (match m.readCachedRow coeffs indices lo hi with
      | .error e => (cache, .error e)
      | .ok (row, lo, hi) =>
        match cache.getOrInsert m.validator (.ofRow row) with
        | (cache', .error e) => (cache', .error e)
        | (cache', .ok (stored, hit)) =>
          if hit && decide ((m.columns : Int) ≤ stored.row.maxIndex) then
            (cache', .error (.cachedIndexRange m.columns stored.row.maxIndex))
          else (cache', .ok (m.append stored.row lo hi, hit))) := by
  unfold addCachedRow
  simp only [perform_bind, perform_get, perform_lift]
  cases m.readCachedRow coeffs indices lo hi with
  | error e => rfl
  | ok given =>
    obtain ⟨row, lo, hi⟩ := given
    simp only [perform_onCache]
    generalize cache.getOrInsert m.validator (.ofRow row) = after
    obtain ⟨cache', answer⟩ := after
    cases answer with
    | error e => rfl
    | ok found =>
      obtain ⟨stored, hit⟩ := found
      simp only
      split <;> rfl

theorem sparesModel_addCachedRow (coeffs indices lo hi : Arg) : (addCachedRow coeffs indices lo hi).SparesModel :=
  sparesModel_of_perform fun m cache => perform_addCachedRow m cache coeffs indices lo hi

end Operation

/-- What adding a row through the cache comes to. -/
def Model.addCachedRow (m : Model) (cache : RowCache) (coeffs indices lo hi : Arg) :
    RowCache × Except Error (Model × Bool) :=
  (Operation.addCachedRow coeffs indices lo hi).applied m cache

theorem Model.addCachedRow_eq (m : Model) (cache : RowCache) (coeffs indices lo hi : Arg) :
    m.addCachedRow cache coeffs indices lo hi =
      match m.readCachedRow coeffs indices lo hi with
      | .error e => (cache, .error e)
      | .ok (row, lo, hi) =>
        match cache.getOrInsert m.validator (.ofRow row) with
        | (cache', .error e) => (cache', .error e)
        | (cache', .ok (stored, hit)) =>
          if hit && decide ((m.columns : Int) ≤ stored.row.maxIndex) then
            (cache', .error (.cachedIndexRange m.columns stored.row.maxIndex))
          else (cache', .ok (m.append stored.row lo hi, hit)) :=
  Operation.applied_of_perform (Operation.perform_addCachedRow m cache coeffs indices lo hi)

/-! ## Edits -/

namespace Edit

variable (e : Edit) (m : Model) (cache : RowCache)

/-- **What an edit comes to**: the cache, and if it is not refused the model and the answer. -/
def apply : RowCache × Except Error (Model × Option Bool) := e.operation.applied m cache

/-- **Seven of the eight edits** work on the model alone: they settle there, on something that a frozen model
refuses. -/
theorem onModel_or_cachedRow :
    (∃ op : Operation Model Unit, (∀ m : Model, ∃ step, op.Settles m (m.whenMutable step)) ∧
      e.operation = (Operation.onModel op >>= fun _ => pure none)) ∨
    ∃ coeffs indices lo hi, e = .cachedRow coeffs indices lo hi := by
  cases e with
  | objective coeffs => exact .inl ⟨_, fun m => ⟨_, Operation.settles_setObjective m coeffs⟩, rfl⟩
  | columnBounds lower upper => exact .inl ⟨_, fun m => ⟨_, Operation.settles_setColumnBounds m lower upper⟩, rfl⟩
  | columnStart values => exact .inl ⟨_, fun m => ⟨_, Operation.settles_setColumnStart m values⟩, rfl⟩
  | columnInteger flags => exact .inl ⟨_, fun m => ⟨_, Operation.settles_setColumnInteger m flags⟩, rfl⟩
  | denseRow coeffs lo hi => exact .inl ⟨_, fun m => ⟨_, Operation.settles_addDenseRow m coeffs lo hi⟩, rfl⟩
  | sparseRow coeffs indices lo hi =>
    exact .inl ⟨_, fun m => ⟨_, Operation.settles_addSparseRow m coeffs indices lo hi⟩, rfl⟩
  | rows rowCount starts indices coeffs lower upper =>
    exact .inl ⟨_, fun m => ⟨_, Operation.settles_addRows m rowCount starts indices coeffs lower upper⟩, rfl⟩
  | cachedRow coeffs indices lo hi => exact .inr ⟨coeffs, indices, lo, hi, rfl⟩

theorem apply_objective (coeffs : Arg) :
    (objective coeffs).apply m cache = (cache, (m.setObjective coeffs).map (·, none)) :=
  (Operation.settles_setObjective m coeffs).applied_onModel_bind cache none

theorem apply_columnBounds (lower upper : Arg) :
    (columnBounds lower upper).apply m cache = (cache, (m.setColumnBounds lower upper).map (·, none)) :=
  (Operation.settles_setColumnBounds m lower upper).applied_onModel_bind cache none

theorem apply_columnStart (values : Arg) :
    (columnStart values).apply m cache = (cache, (m.setColumnStart values).map (·, none)) :=
  (Operation.settles_setColumnStart m values).applied_onModel_bind cache none

theorem apply_columnInteger (flags : Arg) :
    (columnInteger flags).apply m cache = (cache, (m.setColumnInteger flags).map (·, none)) :=
  (Operation.settles_setColumnInteger m flags).applied_onModel_bind cache none

theorem apply_denseRow (coeffs lo hi : Arg) :
    (denseRow coeffs lo hi).apply m cache = (cache, (m.addDenseRow coeffs lo hi).map (·, none)) :=
  (Operation.settles_addDenseRow m coeffs lo hi).applied_onModel_bind cache none

theorem apply_sparseRow (coeffs indices lo hi : Arg) :
    (sparseRow coeffs indices lo hi).apply m cache =
      (cache, (m.addSparseRow coeffs indices lo hi).map (·, none)) :=
  (Operation.settles_addSparseRow m coeffs indices lo hi).applied_onModel_bind cache none

theorem apply_rows (rowCount starts indices coeffs lower upper : Arg) :
    (rows rowCount starts indices coeffs lower upper).apply m cache =
      (cache, (m.addRows rowCount starts indices coeffs lower upper).map (·, none)) :=
  (Operation.settles_addRows m rowCount starts indices coeffs lower upper).applied_onModel_bind cache none

theorem apply_cachedRow (coeffs indices lo hi : Arg) :
    (cachedRow coeffs indices lo hi).apply m cache =
      ((m.addCachedRow cache coeffs indices lo hi).1,
        (m.addCachedRow cache coeffs indices lo hi).2.map fun p => (p.1, some p.2)) :=
  Operation.applied_bind_pure (Operation.addCachedRow coeffs indices lo hi) some m cache

/-- Such an edit comes to what it makes of the model, and leaves the cache alone. -/
theorem apply_plain_or_cachedRow :
    (∃ step : Model → Except Error Model, ∀ (m : Model) (cache : RowCache),
      e.apply m cache = (cache, (m.whenMutable (step m)).map (·, none))) ∨
    ∃ coeffs indices lo hi, e = .cachedRow coeffs indices lo hi := by
  rcases e.onModel_or_cachedRow with ⟨op, hsettles, heq⟩ | hcached
  · choose step hstep using hsettles
    refine .inl ⟨step, fun m cache => ?_⟩
    rw [apply, heq, (hstep m).applied_onModel_bind, (hstep m).outcome_eq]
  · exact .inr hcached

/-- **Every edit spares its model when it is refused.** -/
theorem sparesModel : e.operation.SparesModel := by
  rcases e.onModel_or_cachedRow with ⟨op, hsettles, heq⟩ | ⟨coeffs, indices, lo, hi, rfl⟩
  · rw [heq]
    refine Operation.sparesModel_onModel_bind (fun m => ?_) none
    obtain ⟨step, hstep⟩ := hsettles m
    exact hstep.self
  · exact (Operation.sparesModel_addCachedRow coeffs indices lo hi).bind_pure some

/-- **A refused edit leaves the model as it was**, so that nothing else comes of an edit than is told. -/
theorem perform_eq : e.perform ⟨m, cache⟩ = Operation.benchAfter m (e.apply m cache) :=
  e.sparesModel.perform_eq m cache

end Edit

end Milp
