import Milp.Proofs.Arg.Vectors
import Milp.Proofs.Model.Outcomes
import Milp.Proofs.Row.Checks

/-!
# What replaces a column vector

Each of the four operations on column vectors puts one checked vector, or two, in the place of the old. Here
it is said once which arguments are accepted, and what becomes of the model.

* `whenMutable_of_open`, `whenMutable_of_frozen` and `whenMutable_eq_ok_iff` — steps on a model that may be frozen.
* `create_eq_ok` — a new model has the width and the infinity that were asked for.
* `setObjective_eq_ok_iff`, `setColumnBounds_eq_ok_iff`, `setColumnStart_eq_ok_iff` and
  `setColumnInteger_eq_ok_iff`.
-/

namespace Milp.Model

/-! ## Steps on models -/

section Steps

variable {m : Model} {α β : Type}

theorem whenMutable_of_open (h : m.frozen = false) (step : Except Error α) : m.whenMutable step = step := by
  rw [whenMutable, checkMutable, h]
  rfl

theorem whenMutable_of_frozen (h : m.frozen = true) (step : Except Error α) :
    m.whenMutable step = .error .frozen := by
  rw [whenMutable, checkMutable, h]
  rfl

/-- An accepted step was tried on a model that is not frozen. -/
theorem whenMutable_eq_ok_iff {step : Except Error α} {a : α} :
    m.whenMutable step = .ok a ↔ m.frozen = false ∧ step = .ok a := by
  cases hfrozen : m.frozen with
  | true =>
    rw [whenMutable_of_frozen hfrozen]
    exact iff_of_false nofun fun h => Bool.noConfusion h.1
  | false =>
    rw [whenMutable_of_open hfrozen]
    exact (and_iff_right rfl).symm

/-- Steps after a step that is tried on a model which is not frozen. -/
theorem whenMutable_bind (step : Except Error α) (f : α → Except Error β) :
    m.whenMutable (step >>= f) = (m.whenMutable step >>= f) :=
  (bind_assoc _ _ _).symm

theorem map_whenMutable (m : Model) (step : Except Error α) (f : α → β) :
    (m.whenMutable step).map f = m.whenMutable (step.map f) :=
  map_bind _ _ f

end Steps

/-! ## Creation -/

/-- **A new model is a blank one**, of the width and with the infinity that were asked for. -/
theorem create_eq_ok {columns rowsHint infinity : Arg} {m : Model}
    (h : create columns rowsHint infinity = .ok m) :
    ∃ (n hint : Nat) (I : Binary64), columns.int? = some (n : Int) ∧ infinity.toNumber = .ok I ∧
      n < entryLimit ∧ m = blank n hint I := by
  unfold create at h
  split at h
  · cases h
  rename_i n hcolumns
  split at h
  · cases h
  rename_i hpositive
  split at h
  · cases h
  split at h
  · cases h
  obtain ⟨hint, -, h⟩ := bind_eq_ok_iff.mp h
  obtain ⟨I, hinfinity, h⟩ := bind_eq_ok_iff.mp h
  obtain ⟨_, hentries, h⟩ := bind_eq_ok_iff.mp h
  cases h
  unfold checkEntries at hentries
  split at hentries
  · rename_i hlt
    have hn : ((n.toNat : Nat) : Int) = n := Int.toNat_of_nonneg (Int.not_lt.mp hpositive)
    exact ⟨n.toNat, hint, I, by rw [hn, hcolumns], hinfinity, hlt, rfl⟩
  · cases hentries

variable {m m' : Model}

/-! ## The operations -/

/-- What is returned after the check of finiteness. -/
theorem checkFinite_bind {xs : List Binary64} {name : String} :
    (checkFinite xs name >>= fun _ => pure m) = .ok m' ↔ (∀ x ∈ xs, x.isFinite = true) ∧ m' = m := by
  rw [bind_eq_ok_iff]
  constructor
  · rintro ⟨_, hfinite, h⟩
    exact ⟨checkFinite_eq_ok_iff.mp hfinite, (Except.ok.inj h).symm⟩
  · rintro ⟨hfinite, rfl⟩
    exact ⟨(), checkFinite_eq_ok_iff.mpr hfinite, rfl⟩

theorem setObjective_eq_ok_iff {coeffs : Arg} :
    m.setObjective coeffs = .ok m' ↔ m.frozen = false ∧ ∃ xs,
      numberVector coeffs (.int m.columns) "objective" = .ok xs ∧ (∀ x ∈ xs, x.isFinite = true) ∧
        m' = { m with objective := xs } := by
  rw [setObjective, (Operation.settles_setObjective m coeffs).outcome_eq, whenMutable_eq_ok_iff, bind_eq_ok_iff]
  exact and_congr_right fun _ => exists_congr fun xs => and_congr_right fun _ => checkFinite_bind

theorem setColumnStart_eq_ok_iff {values : Arg} :
    m.setColumnStart values = .ok m' ↔ m.frozen = false ∧ ∃ xs,
      numberVector values (.int m.columns) "column start values" = .ok xs ∧
        (∀ x ∈ xs, x.isFinite = true) ∧ m' = { m with start := some xs } := by
  rw [setColumnStart, (Operation.settles_setColumnStart m values).outcome_eq, whenMutable_eq_ok_iff, bind_eq_ok_iff]
  exact and_congr_right fun _ => exists_congr fun xs => and_congr_right fun _ => checkFinite_bind

theorem setColumnInteger_eq_ok_iff {flags : Arg} :
    m.setColumnInteger flags = .ok m' ↔ m.frozen = false ∧ ∃ bs,
      flagVector flags m.columns = .ok bs ∧ m' = { m with integer := bs } := by
  rw [setColumnInteger, (Operation.settles_setColumnInteger m flags).outcome_eq, whenMutable_eq_ok_iff, bind_eq_ok_iff]
  refine and_congr_right fun _ => exists_congr fun bs => and_congr_right fun _ => ?_
  constructor
  · intro h
    cases h
    rfl
  · rintro rfl
    rfl

theorem crossedBounds_eq_nil_iff {lower upper : List Binary64} :
    crossedBounds lower upper = [] ↔ ∀ b ∈ lower.zip upper, ¬ b.2.lt b.1 = true := by
  rw [crossedBounds, List.map_eq_nil_iff, List.filter_eq_nil_iff]
  exact forall_mem_zipIdx_iff fun b : Binary64 × Binary64 => ¬ b.2.lt b.1 = true

/-- **Bounds that may be set**: none at the wrong infinity, and no lower bound above its upper one. -/
theorem setColumnBounds_eq_ok_iff {lower upper : Arg} :
    m.setColumnBounds lower upper = .ok m' ↔ m.frozen = false ∧ ∃ los his,
      numberVector lower (.int m.columns) "column lower bounds" = .ok los ∧
      numberVector upper (.int m.columns) "column upper bounds" = .ok his ∧
      (∀ x ∈ los, ¬ m.infinity.le x = true) ∧ (∀ x ∈ his, ¬ x.le m.infinity.neg = true) ∧
      (∀ b ∈ los.zip his, ¬ b.2.lt b.1 = true) ∧
      m' = { m with
        lower := los.map fun x => x.maximum m.infinity.neg
        upper := his.map fun x => x.minimum m.infinity } := by
  rw [setColumnBounds, (Operation.settles_setColumnBounds m lower upper).outcome_eq, whenMutable_eq_ok_iff,
    bind_eq_ok_iff]
  refine and_congr_right fun _ => exists_congr fun los => ?_
  rw [exists_and_left, bind_eq_ok_iff]
  refine and_congr_right fun _ => exists_congr fun his => and_congr_right fun _ => ?_
  rw [← crossedBounds_eq_nil_iff, ← List.any_eq_false, ← List.any_eq_false]
  -- the three checks come one after the other
  cases los.any fun x => m.infinity.le x with
  | true =>
    constructor
    · intro h
      cases h
    · rintro ⟨h, -⟩
      cases h
  | false =>
    cases his.any fun x => x.le m.infinity.neg with
    | true =>
      constructor
      · intro h
        cases h
      · rintro ⟨-, h, -⟩
        cases h
    | false =>
      cases crossedBounds los his with
      | cons c rest =>
        constructor
        · intro h
          cases h
        · rintro ⟨-, -, h, -⟩
          cases h
      | nil =>
        constructor
        · intro h
          cases h
          exact ⟨rfl, rfl, rfl, rfl⟩
        · rintro ⟨-, -, -, rfl⟩
          rfl

end Milp.Model
