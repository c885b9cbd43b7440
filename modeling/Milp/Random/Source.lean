import Milp.Binary64.Arith

/-!
# Sources of random draws

What a generator of instances needs of randomness: numbers from an interval, positions, and choices of
several positions at once. A `Source` draws from a state of any kind and hands the next state back, so
the same generator runs on words from a seed and on any other sequence of draws.
-/

namespace Milp.Random

/-- **A source of draws** over states of type `σ`. -/
structure Source (σ : Type) where
  /-- a number between two numbers -/
  uniform (lo hi : Binary64) : σ → Binary64 × σ
  /-- a number from zero up to below one -/
  unit : σ → Binary64 × σ
  /-- `k` different numbers below `n`, in no particular order -/
  choose (n k : Nat) : σ → List Nat × σ
  /-- a number below `k` -/
  below (k : Nat) : σ → Nat × σ

/-- **The same draw, several times over**: the results in the order of drawing. -/
def times {σ α : Type} (draw : σ → α × σ) : Nat → σ → List α × σ
  | 0, s => ([], s)
  | n + 1, s =>
    let (a, s) := draw s
    let (rest, s) := times draw n s
    (a :: rest, s)

@[simp] theorem length_times {σ α : Type} (draw : σ → α × σ) (n : Nat) (s : σ) :
    (times draw n s).1.length = n := by
  induction n generalizing s with
  | zero => rfl
  | succ n ih => simp [times, ih]

/-- Every result of repeated draws has what every single result has. -/
theorem forall_mem_times {σ α : Type} {draw : σ → α × σ} {p : α → Prop}
    (h : ∀ s, p (draw s).1) (n : Nat) (s : σ) : ∀ a ∈ (times draw n s).1, p a := by
  induction n generalizing s with
  | zero => simp [times]
  | succ n ih =>
    intro a ha
    simp only [times, List.mem_cons] at ha
    rcases ha with rfl | ha
    · exact h s
    · exact ih _ a ha

end Milp.Random
