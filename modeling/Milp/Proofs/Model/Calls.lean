import Milp.Model.Workspace
import Milp.Proofs.Model.Outcomes

/-!
# Calls on a workspace

A call changes one model, adds one, or is refused. Here this is said once, for all proofs about calls.

* `put_self`, `put_put`, `models_put` and `models_put_of_ne` — putting a model under a number.
* `Called` — everything that a call can come to: `called`.
* `call_refused` and `call_accepted` — edits that do not touch the row cache.
-/

namespace Milp.Workspace

variable {w : Workspace} {i : Nat} {m : Model}

/-! ## Models under their numbers -/

theorem put_self (hm : w.models[i]? = some m) : w.put i m = w := by
  obtain ⟨hi, rfl⟩ := List.getElem?_eq_some_iff.mp hm
  rw [put, List.set_getElem_self]

@[simp] theorem put_put (w : Workspace) (i : Nat) (m m' : Model) :
    (w.put i m).put i m' = w.put i m' := by
  simp [put]

theorem models_put (hm : w.models[i]? = some m) (m' : Model) :
    (w.put i m').models[i]? = some m' := by
  obtain ⟨hi, -⟩ := List.getElem?_eq_some_iff.mp hm
  exact List.getElem?_set_self hi

/-- The other models stay where they are. -/
theorem models_put_of_ne {j : Nat} (hne : j ≠ i) (m' : Model) :
    (w.put j m').models[i]? = w.models[i]? :=
  List.getElem?_set_ne hne

/-! ## What a call does -/

/-- **What a call comes to**: the workspace afterwards, and the answer. -/
inductive Called (w : Workspace) : Call → Workspace × Except Error (Option Bool) → Prop where
  | created {columns rowsHint infinity : Arg} {m : Model}
      (h : Model.create columns rowsHint infinity = .ok m) :
      Called w (.create columns rowsHint infinity) ({ w with models := w.models ++ [m] }, .ok none)
  | notCreated {columns rowsHint infinity : Arg} {e : Error}
      (h : Model.create columns rowsHint infinity = .error e) :
      Called w (.create columns rowsHint infinity) (w, .error e)
  | edited {i : Nat} {e : Edit} {m m' : Model} {cache : RowCache} {hit : Option Bool}
      (hm : w.models[i]? = some m) (h : e.apply m w.cache = (cache, .ok (m', hit))) :
      Called w (.edit i e) ({ w with cache := cache }.put i m', .ok hit)
  | notEdited {i : Nat} {e : Edit} {m : Model} {cache : RowCache} {refusal : Error}
      (hm : w.models[i]? = some m) (h : e.apply m w.cache = (cache, .error refusal)) :
      Called w (.edit i e) ({ w with cache := cache }, .error refusal)
  | nothingToEdit {i : Nat} {e : Edit} (hm : w.models[i]? = none) :
      Called w (.edit i e) (w, .error (.fault .outOfBounds))
  | frozen {i : Nat} {m : Model} (hm : w.models[i]? = some m) :
      Called w (.freeze i) (w.put i m.freeze, .ok none)
  | nothingToFreeze {i : Nat} (hm : w.models[i]? = none) :
      Called w (.freeze i) (w, .error (.fault .outOfBounds))

theorem called (w : Workspace) (c : Call) : Called w c (w.call c) := by
  cases c with
  | create columns rowsHint infinity =>
    cases h : Model.create columns rowsHint infinity with
    | error e =>
      simp only [call, h]
      exact .notCreated h
    | ok m =>
      simp only [call, h]
      exact .created h
  | edit i e =>
    cases hm : w.models[i]? with
    | none =>
      simp only [call, hm]
      exact .nothingToEdit hm
    | some m =>
      simp only [call, hm, e.perform_eq]
      cases h : e.apply m w.cache with
      | mk cache result =>
        cases result with
        | error refusal =>
          -- what is put back is the model that was there
          show Called w (.edit i e) ({ w with cache := cache }.put i m, .error refusal)
          rw [put_self (w := { w with cache := cache }) hm]
          exact .notEdited hm h
        | ok answer => exact .edited hm h
  | freeze i =>
    cases hm : w.models[i]? with
    | none =>
      simp only [call, hm]
      exact .nothingToFreeze hm
    | some m =>
      simp only [call, hm]
      exact .frozen hm

/-- An edit that is refused, and does not touch the cache, changes nothing. -/
theorem call_refused {e : Edit} {refusal : Error} (hm : w.models[i]? = some m)
    (h : e.apply m w.cache = (w.cache, .error refusal)) :
    w.call (.edit i e) = (w, .error refusal) := by
  simp only [call, hm, e.perform_eq, h, Operation.benchAfter]
  rw [put_self (w := { w with cache := w.cache }) hm]

/-- An edit that is accepted, and does not touch the cache, changes its model only. -/
theorem call_accepted {e : Edit} {m' : Model} {hit : Option Bool} (hm : w.models[i]? = some m)
    (h : e.apply m w.cache = (w.cache, .ok (m', hit))) :
    w.call (.edit i e) = (w.put i m', .ok hit) := by
  simp only [call, hm, e.perform_eq, h, Operation.benchAfter]

end Milp.Workspace
