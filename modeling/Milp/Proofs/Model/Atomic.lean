import Milp.Proofs.Model.Additions
import Milp.Proofs.Model.Calls

/-!
# Refused calls and frozen models

A call that is refused leaves no trace but, at most, a counted hit of the row cache. A frozen model refuses
every edit before it looks at the arguments, and so stays as it is for good.

* `cache_of_refused` and `call_refused_unchanged` — what a refused edit and a refused call leave behind.
* `apply_of_frozen` — a frozen model refuses every edit.
* `models_call_of_frozen` and `models_run_of_frozen` — one call, and calls in a row, around a frozen model.
* `refused_unchanged_frozen_final` — both properties, of every workspace.
-/

namespace Milp

/-! ## Refusals -/

/-- **A refused edit stores nothing.** The cache may have counted a hit before its row was refused. -/
theorem Edit.cache_of_refused {e : Edit} {m : Model} {cache cache' : RowCache} {refusal : Error}
    (h : e.apply m cache = (cache', .error refusal)) :
    ∃ hits, cache' = { cache with hits := hits } := by
  rcases e.apply_plain_or_cachedRow with ⟨step, hplain⟩ | ⟨coeffs, indices, lo, hi, rfl⟩
  · -- the other edits do not touch the cache
    rw [hplain] at h
    exact ⟨cache.hits, (congrArg Prod.fst h).symm⟩
  · rw [Edit.apply_cachedRow] at h
    cases hread : m.readCachedRow coeffs indices lo hi with
    | error e =>
      rw [Model.addCachedRow_of_error hread] at h
      cases h
      exact ⟨cache.hits, rfl⟩
    | ok given =>
      obtain ⟨r, l, u⟩ := given
      have haddition := Model.cachedAddition cache hread
      generalize m.addCachedRow cache coeffs indices lo hi = answer at haddition h
      cases haddition with
      | shared s hfind hwide => cases h
      | tooWide s hfind hnarrow =>
        cases h
        exact ⟨cache.hits + 1, rfl⟩
      | refused e hnew hcheck =>
        cases h
        exact ⟨cache.hits, rfl⟩
      | stored hkey hnew hfits => cases h

/-! ## Frozen models -/

/-- **A frozen model refuses every edit**, whatever its arguments are. -/
theorem Edit.apply_of_frozen {m : Model} (h : m.frozen = true) (e : Edit) (cache : RowCache) :
    e.apply m cache = (cache, .error .frozen) := by
  rcases e.apply_plain_or_cachedRow with ⟨step, hplain⟩ | ⟨coeffs, indices, lo, hi, rfl⟩
  · rw [hplain, Model.whenMutable_of_frozen h]
    rfl
  · have hread : m.readCachedRow coeffs indices lo hi = .error .frozen := Model.whenMutable_of_frozen h _
    rw [Edit.apply_cachedRow, Model.addCachedRow_of_error hread]
    rfl

/-- An edit that is accepted was tried on a model that is not frozen. -/
theorem Edit.open_of_ok {e : Edit} {m m' : Model} {cache cache' : RowCache} {hit : Option Bool}
    (h : e.apply m cache = (cache', .ok (m', hit))) : m.frozen = false := by
  refine Bool.eq_false_iff.mpr fun hfrozen => ?_
  rw [Edit.apply_of_frozen hfrozen] at h
  cases h

/-- Freezing a frozen model changes nothing. -/
theorem Model.freeze_of_frozen {m : Model} (h : m.frozen = true) : m.freeze = m := by
  rw [Model.freeze, ← h]

namespace Workspace

variable {w : Workspace} {i : Nat} {m : Model}

/-- **The calls on one model**: its edits, and freezing it. -/
def Call.IsOn (i : Nat) : Call → Prop
  | .create _ _ _ => False
  | .edit j _ => j = i
  | .freeze j => j = i

/-- **A refused call changes no model and stores no row.** -/
theorem call_refused_unchanged {c : Call} {refusal : Error} (h : (w.call c).2 = .error refusal) :
    (w.call c).1.models = w.models ∧
      ∃ hits, (w.call c).1.cache = { w.cache with hits := hits } := by
  have hcalled := w.called c
  generalize w.call c = after at hcalled h ⊢
  cases hcalled with
  | created | edited | frozen => cases h
  | notEdited hm happly => exact ⟨rfl, Edit.cache_of_refused happly⟩
  | notCreated | nothingToEdit | nothingToFreeze => exact ⟨rfl, w.cache.hits, rfl⟩

/-- **An edit of a frozen model is refused** and leaves the workspace as it was. -/
theorem call_edit_of_frozen (hm : w.models[i]? = some m) (h : m.frozen = true) (e : Edit) :
    w.call (.edit i e) = (w, .error .frozen) :=
  call_refused hm (Edit.apply_of_frozen h e w.cache)

/-- A call on a frozen model leaves the workspace as it was. -/
theorem call_of_frozen (hm : w.models[i]? = some m) (h : m.frozen = true) {c : Call} (hc : c.IsOn i) :
    (w.call c).1 = w := by
  cases c with
  | create columns rowsHint infinity => cases hc
  | edit j e =>
    cases hc
    rw [call_edit_of_frozen hm h]
  | freeze j =>
    cases hc
    simp only [call, hm]
    rw [Model.freeze_of_frozen h]
    exact put_self hm

/-- **No call changes a frozen model**, whichever model it is on. -/
theorem models_call_of_frozen (hm : w.models[i]? = some m) (h : m.frozen = true) (c : Call) :
    (w.call c).1.models[i]? = some m := by
  by_cases hc : c.IsOn i
  · rw [call_of_frozen hm h hc]
    exact hm
  · have hcalled := w.called c
    generalize w.call c = after at hcalled ⊢
    cases hcalled with
    | created hcreate =>
      obtain ⟨hi, -⟩ := List.getElem?_eq_some_iff.mp hm
      exact (List.getElem?_append_left hi).trans hm
    | edited hj happly => exact (models_put_of_ne hc _).trans hm
    | frozen hj => exact (models_put_of_ne hc _).trans hm
    | notEdited | notCreated | nothingToEdit | nothingToFreeze => exact hm

/-- **Calls in a row do not change a frozen model.** -/
theorem models_run_of_frozen (hm : w.models[i]? = some m) (h : m.frozen = true) (calls : List Call) :
    (w.run calls).models[i]? = some m := by
  induction calls generalizing w with
  | nil => exact hm
  | cons c rest ih => exact ih (models_call_of_frozen hm h c)

/-- Calls in a row on a frozen model leave the workspace as it was. -/
theorem run_of_frozen (hm : w.models[i]? = some m) (h : m.frozen = true) {calls : List Call}
    (hcalls : ∀ c ∈ calls, c.IsOn i) : w.run calls = w := by
  induction calls with
  | nil => rfl
  | cons c rest ih =>
    obtain ⟨hc, hrest⟩ := List.forall_mem_cons.mp hcalls
    rw [run_cons, call_of_frozen hm h hc]
    exact ih hrest

/-! ## Both together -/

/-- **A refused edit changes nothing, and freezing is final.** After a refusal all models are as they were, and
the row cache holds the same rows; at most its count of hits is another. From the moment a model is frozen,
whatever calls are made on whatever models, it stays as it is, and every edit of it is refused for that and
changes nothing at all. -/
theorem refused_unchanged_frozen_final (w : Workspace) (i : Nat) :
    (∀ e refusal, (w.call (.edit i e)).2 = .error refusal →
      (w.call (.edit i e)).1.models = w.models ∧
        ∃ hits, (w.call (.edit i e)).1.cache = { w.cache with hits := hits }) ∧
    ∀ m, w.models[i]? = some m → ∀ later : List Call,
      let start := (w.call (.freeze i)).1
      (start.run later).models[i]? = some m.freeze ∧
        (∀ e, (start.run later).call (.edit i e) = (start.run later, .error .frozen)) ∧
        ((∀ c ∈ later, c.IsOn i) → start.run later = start) ∧
        Error.frozen.category = .invalidState := by
  constructor
  · intro e refusal h
    exact call_refused_unchanged h
  · intro m hm later start
    have hstart : start.models[i]? = some m.freeze := by
      have hcall : start = w.put i m.freeze := by simp only [start, call, hm]
      rw [hcall]
      exact models_put hm _
    have hlater := models_run_of_frozen hstart rfl later
    exact ⟨hlater, fun e => call_edit_of_frozen hlater rfl e,
      fun hcalls => run_of_frozen hstart rfl hcalls, rfl⟩

end Workspace

end Milp
