import Milp.Model.Edit

/-!
# Workspaces

Models that share one row cache, and the calls that may be made on them in any order. A call names the
model that it is about by its number; models are numbered in the order in which they were created.

* `Workspace.call` — one call, with its answer. Whatever an edit has made of its model is put back.
* `Workspace.run` and `Workspace.answers` — calls in a row.
* `Model.Reachable` — a model that some calls have made, starting from nothing.
-/

namespace Milp

/-- **A workspace**: models, and the cache that they share. -/
structure Workspace where
  models : List Model
  cache : RowCache

namespace Workspace

/-- A workspace without models. -/
def empty (signing : Signing) : Workspace := ⟨[], RowCache.empty signing⟩

/-- **A call** on a workspace. -/
inductive Call where
  | create (columns rowsHint infinity : Arg)
  | edit (model : Nat) (e : Edit)
  | freeze (model : Nat)

/-- The workspace with another model under a number. -/
def put (w : Workspace) (i : Nat) (m : Model) : Workspace := { w with models := w.models.set i m }

/-- **Carries out a call.** The answer tells, for a row that was added through the cache, whether the
cache had it. -/
def call (w : Workspace) : Call → Workspace × Except Error (Option Bool)
  | .create columns rowsHint infinity =>
    match Model.create columns rowsHint infinity with
    | .error e => (w, .error e)
    | .ok m => ({ w with models := w.models ++ [m] }, .ok none)
  | .edit i e =>
    match w.models[i]? with
    | none => (w, .error (.fault .outOfBounds))
    | some m =>
      let (b, answer) := e.perform ⟨m, w.cache⟩
      ({ w with cache := b.cache }.put i b.model, answer)
  | .freeze i =>
    match w.models[i]? with
    | none => (w, .error (.fault .outOfBounds))
    | some m => (w.put i m.freeze, .ok none)

/-- **The workspace after calls in a row.** -/
def run (w : Workspace) (calls : List Call) : Workspace :=
  calls.foldl (fun w c => (w.call c).1) w

/-- The answers to calls in a row. -/
def answers (w : Workspace) : List Call → List (Except Error (Option Bool))
  | [] => []
  | c :: rest => (w.call c).2 :: answers (w.call c).1 rest

@[simp] theorem run_nil (w : Workspace) : w.run [] = w := rfl

@[simp] theorem run_cons (w : Workspace) (c : Call) (rest : List Call) :
    w.run (c :: rest) = (w.call c).1.run rest := rfl

end Workspace

/-- **A reachable model**: one of the models of a workspace after any calls, whatever signatures its
cache uses. -/
def Model.Reachable (m : Model) : Prop :=
  ∃ (signing : Signing) (calls : List Workspace.Call),
    m ∈ ((Workspace.empty signing).run calls).models

end Milp
