import Milp.Model.Basic

/-!
# Operations

An operation on a model looks at it, checks its arguments and changes it, one step after the other. Any step may
refuse to go on. A refusal takes nothing back: what was changed before it stays changed, and is handed out beside it.

* `Operation` — steps on a state; `Operation.perform` — the state afterwards, and the answer.
* `Bench` — a model and the row cache that it uses; `onModel` and `onCache` work on one of the two.
-/

namespace Milp

/-- **An operation** on some state, which may be refused half way. -/
abbrev Operation (σ α : Type) := ExceptT Error (StateM σ) α

/-- **A model and the row cache** that it uses. -/
structure Bench where
  model : Model
  cache : RowCache

namespace Operation

variable {σ α : Type}

/-- **Carries out an operation.** The state comes back from a refusal as well. -/
def perform (op : Operation σ α) (s : σ) : σ × Except Error α := Prod.swap (op.run s)

/-- An operation on the model of a bench. -/
def onModel (op : Operation Model α) : Operation Bench α := do
  let b ← get
  let (m, answer) := op.perform b.model
  set { b with model := m }
  answer

/-- Work on the cache of a bench. -/
def onCache (work : RowCache → RowCache × Except Error α) : Operation Bench α := do
  let b ← get
  let (cache, answer) := work b.cache
  set { b with cache := cache }
  answer

end Operation

end Milp
