import Milp.Proofs.Model.Reachable
import Milp.Proofs.Model.Vectors

/-!
# Models built again from what they show

A model shows its width, its guess at the number of rows, its infinity, its column vectors and its rows. Whatever calls
have made it, these can be handed to a new model, which takes them all and shows the same: bounds lie within infinity
already, so they are not moved again.

* `Workspace.Accepts` — calls that are all accepted, and where they lead.
* `Model.columnEdits` and `Model.rebuild` — the calls that hand over what a model shows.
* `Model.WellFormed.setColumnBounds_again` and `Model.WellFormed.setColumnStart_again` — vectors of a model are taken by
  every open model of its width; `Model.WellFormed.accepts_columnEdits` and `Model.WellFormed.accepts_rebuild`.
* `Model.rebuild_of_reachable` — the new model shows the same.
-/

namespace Milp

namespace Workspace

/-! ## Calls that are accepted -/

/-- **Calls that are all accepted**, none of them through the row cache, and where they lead. -/
structure Accepts (w : Workspace) (calls : List Call) (w' : Workspace) : Prop where
  answers : ∀ a ∈ w.answers calls, a = .ok none
  run : w.run calls = w'

variable {w w₁ w' : Workspace} {i : Nat} {m m' : Model} {rest : List Call}

theorem Accepts.cons {c : Call} (h : w.call c = (w₁, .ok none)) (hrest : w₁.Accepts rest w') :
    w.Accepts (c :: rest) w' where
  answers := by
    rw [Workspace.answers, h]
    exact List.forall_mem_cons.mpr ⟨rfl, hrest.answers⟩
  run := by
    rw [run_cons, h]
    exact hrest.run

/-- An edit on a model that has just been put in its place. -/
theorem Accepts.edit {e : Edit} (hi : i < w.models.length)
    (h : ∀ cache, e.apply m cache = (cache, .ok (m', none))) (hrest : (w.put i m').Accepts rest w') :
    (w.put i m).Accepts (.edit i e :: rest) w' := by
  have hm : (w.put i m).models[i]? = some m := models_put (List.getElem?_eq_getElem hi) m
  have hcall := call_accepted hm (h (w.put i m).cache)
  rw [put_put] at hcall
  exact .cons hcall hrest

/-- Rows that fit, one by one. -/
theorem accepts_rowCalls (hi : i < w.models.length) (hopen : m.frozen = false) {rows : List BoundedRow}
    (hrows : ∀ r ∈ rows, r.Fits m.columns) : (w.put i m).Accepts (rowCalls i rows) (w.put i (m.appendAll rows)) := by
  have hm : (w.put i m).models[i]? = some m := models_put (List.getElem?_eq_getElem hi) m
  exact ⟨(answers_rowCalls hm hopen).mpr hrows, by rw [run_rowCalls hm hopen hrows, put_put]⟩

end Workspace

namespace Model

/-! ## What a model shows, as calls -/

/-- **The edits that hand over the column vectors of a model.** -/
def columnEdits (m : Model) : List Edit :=
  [.columnBounds (.ofFloats m.lower) (.ofFloats m.upper), .objective (.ofFloats m.objective),
    .columnInteger (.ofFlags m.integer)] ++ (m.start.map fun xs => .columnStart (.ofFloats xs)).toList

/-- **The calls that build a model again**, under the next number. -/
def rebuild (m : Model) (i : Nat) : List Workspace.Call :=
  .create (.int m.columns) (.int m.rowsHint) (.float m.infinity) ::
    (m.columnEdits.map (.edit i) ++ Workspace.rowCalls i m.rows)

variable {m k : Model}

/-- **Bounds of a model are taken by every open model** of its width and infinity, as they are. -/
theorem WellFormed.setColumnBounds_again (hm : m.WellFormed) (hI : Binary64.zero.lt m.infinity = true)
    (hk : m.SameFrame k) (hopen : k.frozen = false) :
    k.setColumnBounds (.ofFloats m.lower) (.ofFloats m.upper) = .ok { k with lower := m.lower, upper := m.upper } :=
  setColumnBounds_of_boxes hopen (hm.lower_length.trans hk.columns.symm) (hm.upper_length.trans hk.columns.symm)
    (hk.infinity.symm ▸ hm.boxes hI)

/-- Start values of a model are taken by every open model of its width. -/
theorem WellFormed.setColumnStart_again (hm : m.WellFormed) (hk : m.SameFrame k) (hopen : k.frozen = false)
    {xs : List Binary64} (hxs : m.start = some xs) :
    k.setColumnStart (.ofFloats xs) = .ok { k with start := some xs } := by
  obtain ⟨hlength, hfinite⟩ := hm.start_finite xs hxs
  exact setColumnStart_of_finite hopen (hlength.trans hk.columns.symm) hfinite

/-- **The column vectors of a model are taken by a blank one** of its width and infinity. -/
theorem WellFormed.accepts_columnEdits (hm : m.WellFormed) (hI : Binary64.zero.lt m.infinity = true)
    {w w' : Workspace} {i : Nat} (hi : i < w.models.length) {rest : List Workspace.Call}
    (hrest : (w.put i { m with rows := [], frozen := false }).Accepts rest w') :
    (w.put i (blank m.columns m.rowsHint m.infinity)).Accepts (m.columnEdits.map (.edit i) ++ rest) w' := by
  let k₀ : Model := blank m.columns m.rowsHint m.infinity
  let k₁ : Model := { k₀ with lower := m.lower, upper := m.upper }
  let k₂ : Model := { k₁ with objective := m.objective }
  let k₃ : Model := { k₂ with integer := m.integer }
  have hbounds (cache : RowCache) :
      (Edit.columnBounds (.ofFloats m.lower) (.ofFloats m.upper)).apply k₀ cache = (cache, .ok (k₁, none)) :=
    Edit.plain_of_ok (Edit.apply_columnBounds k₀ cache _ _)
      (hm.setColumnBounds_again (k := k₀) hI ⟨rfl, rfl, rfl⟩ rfl)
  have hobjective (cache : RowCache) :
      (Edit.objective (.ofFloats m.objective)).apply k₁ cache = (cache, .ok (k₂, none)) :=
    Edit.plain_of_ok (Edit.apply_objective k₁ cache _)
      (setObjective_of_finite (m := k₁) rfl hm.objective_length hm.objective_finite)
  have hflags (cache : RowCache) :
      (Edit.columnInteger (.ofFlags m.integer)).apply k₂ cache = (cache, .ok (k₃, none)) :=
    Edit.plain_of_ok (Edit.apply_columnInteger k₂ cache _)
      (setColumnInteger_of_flags (m := k₂) rfl hm.integer_length)
  have hstart : (w.put i k₃).Accepts
      (((m.start.map fun xs => .columnStart (.ofFloats xs)).toList : List Edit).map (.edit i) ++ rest) w' := by
    cases hxs : m.start with
    | none =>
      rw [hxs] at hrest
      exact hrest
    | some xs =>
      rw [hxs] at hrest
      exact .edit hi (fun cache =>
        Edit.plain_of_ok (Edit.apply_columnStart k₃ cache _)
          (hm.setColumnStart_again (k := k₃) ⟨rfl, rfl, rfl⟩ rfl hxs)) hrest
  exact .edit hi hbounds (.edit hi hobjective (.edit hi hflags hstart))

/-- **A well-formed model is built again by what it shows**, as an open model. -/
theorem WellFormed.accepts_rebuild (hm : m.WellFormed) (hI : Binary64.zero.lt m.infinity = true) (w : Workspace) :
    w.Accepts (m.rebuild w.models.length) { w with models := w.models ++ [{ m with frozen := false }] } := by
  let k : Model := blank m.columns m.rowsHint m.infinity
  let w₁ : Workspace := { w with models := w.models ++ [k] }
  have hcreate : w.call (.create (.int m.columns) (.int m.rowsHint) (.float m.infinity)) = (w₁, .ok none) := by
    rw [Workspace.call, create_of_counts hm.columns_lt]
  have hi : w.models.length < w₁.models.length := by
    rw [List.length_append]
    exact Nat.lt_succ_self _
  have hput (m' : Model) : w₁.put w.models.length m' = { w with models := w.models ++ [m'] } := by
    simp [w₁, Workspace.put]
  have hrows := Workspace.accepts_rowCalls (m := { m with rows := [], frozen := false }) hi rfl hm.rows_fit
  have hall := hm.accepts_columnEdits hI hi hrows
  rw [hput, hput] at hall
  exact .cons hcreate hall

/-- **A model can be built again from what it shows.** For every model that any calls have made, with an infinity above
zero: a new model of the same width, guess and infinity takes its bounds, objective, flags, start values if there are
any, and rows in their order, and shows the same, whatever other models there are; it is open, even if the first one
is frozen. And as long as a model is open, its own bounds are taken and change nothing. -/
theorem rebuild_of_reachable (hm : m.Reachable) (hI : Binary64.zero.lt m.infinity = true) :
    (∀ w : Workspace, (∀ a ∈ w.answers (m.rebuild w.models.length), a = .ok none) ∧
      w.run (m.rebuild w.models.length) = { w with models := w.models ++ [{ m with frozen := false }] }) ∧
    ∀ (w : Workspace) (i : Nat), w.models[i]? = some m → m.frozen = false →
      w.call (.edit i (.columnBounds (.ofFloats m.lower) (.ofFloats m.upper))) = (w, .ok none) := by
  have hwf : m.WellFormed := hm.wellFormed
  constructor
  · intro w
    obtain ⟨hanswers, hrun⟩ := hwf.accepts_rebuild hI w
    exact ⟨hanswers, hrun⟩
  · intro w i hi hopen
    have hset := hwf.setColumnBounds_again hI .rfl hopen
    have hcall : w.call (.edit i (.columnBounds (.ofFloats m.lower) (.ofFloats m.upper))) = (w.put i m, .ok none) :=
      Workspace.call_accepted hi (Edit.plain_of_ok (Edit.apply_columnBounds m w.cache _ _) hset)
    rw [hcall, Workspace.put_self hi]

/-- Two columns where 100 counts as infinite, with bounds that were moved to it, start values, flags, and a frozen
model. -/
theorem rebuild_of_clamped :
    let hundred := Binary64.ofInt 100
    let row : BoundedRow := ⟨.ofArrays [1] [Binary64.one], Binary64.negInfinity, Binary64.one⟩
    let m : Model := { blank 2 0 hundred with
      lower := [hundred.neg, Binary64.zero], upper := [hundred, Binary64.one], integer := [false, true],
      start := some [Binary64.one, Binary64.one], rows := [row], frozen := true }
    let w : Workspace := ⟨[m], RowCache.empty .digest⟩
    m.Reachable ∧ Binary64.zero.lt m.infinity = true ∧
      w.run (m.rebuild 1) = { w with models := [m, { m with frozen := false }] } := by
  intro hundred row m w
  have hm : m.Reachable := by
    refine ⟨.digest, [.create (.int 2) (.int 0) (.float hundred),
      .edit 0 (.columnBounds (.list [.float Binary64.negInfinity, .int 0]) (.list [.int 1000, .int 1])),
      .edit 0 (.columnInteger (.list [.flag false, .flag true])), .edit 0 (.columnStart (.list [.int 1, .int 1])),
      .edit 0 (.sparseRow (.list [.int 1]) (.list [.int 1]) (.float Binary64.negInfinity) (.int 1)), .freeze 0], ?_⟩
    decide +kernel
  have hI : Binary64.zero.lt m.infinity = true := by decide +kernel
  exact ⟨hm, hI, ((rebuild_of_reachable hm hI).1 w).2⟩

end Model

end Milp
