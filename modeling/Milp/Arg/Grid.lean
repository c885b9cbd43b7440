import Milp.Arg.Basic

/-!
# Arrays

Entries along any number of axes, as callers hand them over in nested lists. A vector is an array with
one axis, a single value one without axes.

* `Grid.join?` — arrays joined along their first axis.
* `Grid.stretch?` — entries repeated to fill a larger shape; a vector fills its own, `Grid.stretch?_vector`.
* `Grid.commonShape?` — the shape to which two arrays can be stretched.
* `Grid.toArg` — the argument that an array is.
-/

namespace Milp

/-- **An array**: the lengths along its axes, and its entries in order. -/
structure Grid (α : Type) where
  shape : List Nat
  entries : List α
  deriving DecidableEq

namespace Grid

/-- The number of entries that a shape has room for. -/
def volume (shape : List Nat) : Nat := shape.foldl (· * ·) 1

variable {α : Type}

/-- The array with one axis that a list is. -/
def vector (xs : List α) : Grid α := ⟨[xs.length], xs⟩

/-- The array with every entry changed. -/
def map {β : Type} (f : α → β) (g : Grid α) : Grid β := ⟨g.shape, g.entries.map f⟩

@[simp] theorem entries_vector (xs : List α) : (vector xs).entries = xs := rfl

@[simp] theorem shape_vector (xs : List α) : (vector xs).shape = [xs.length] := rfl

@[simp] theorem map_vector {β : Type} (f : α → β) (xs : List α) :
    (vector xs).map f = vector (xs.map f) := by
  simp [map, vector]

/-! ## Joining and stretching -/

/-- `n` lists of `size` entries each, cut from a list. -/
def chunks (size : Nat) : Nat → List α → List (List α)
  | 0, _ => []
  | n + 1, xs => xs.take size :: chunks size n (xs.drop size)

/-- Arrays joined along the first axis; all other axes have to agree. There is no first axis when there
are no arrays. -/
def join? (gs : List (Grid α)) : Option (Grid α) :=
  match gs with
  | [] => none
  | g :: _ =>
    let rest := g.shape.drop 1
    if gs.all fun h => !h.shape.isEmpty && decide (h.shape.drop 1 = rest) then
      some ⟨(gs.map fun h => h.shape.headD 0).foldl (· + ·) 0 :: rest, gs.flatMap entries⟩
    else none

/-- Entries of one shape repeated to fill another shape with as many axes: an axis of length one may be
stretched to any length. -/
def repeatTo? : List Nat → List Nat → List α → Option (List α)
  | t :: target, s :: shape, xs =>
    if s = t then
      ((chunks (volume shape) s xs).mapM fun part => repeatTo? target shape part).map List.flatten
    else if s = 1 then
      (repeatTo? target shape xs).map fun part => (List.replicate t part).flatten
    else none
  | _, _, xs => some xs

/-- **The entries of an array stretched to a shape.** Missing axes in front are stretched. Superfluous
ones in front are dropped, which must not change the number of entries. -/
def stretch? (target : List Nat) (g : Grid α) : Option (List α) :=
  let missing := target.length - g.shape.length
  let kept := g.shape.drop (g.shape.length - target.length)
  if volume kept = volume g.shape then
    repeatTo? target (List.replicate missing 1 ++ kept) g.entries
  else none

/-- An array stretched to a shape that it fits. -/
def stretched (target : List Nat) (g : Grid α) : Grid α :=
  ⟨target, (g.stretch? target).getD g.entries⟩

/-- Two arrays of one shape, entry by entry. -/
def zipWith {β γ : Type} (f : α → β → γ) (g : Grid α) (h : Grid β) : Grid γ :=
  ⟨g.shape, List.zipWith f g.entries h.entries⟩

/-- The array with an axis: a single value becomes a vector. -/
def withAxis (g : Grid α) : Grid α := if g.shape.isEmpty then { g with shape := [1] } else g

@[simp] theorem withAxis_vector (xs : List α) : (vector xs).withAxis = vector xs := rfl

theorem flatten_chunks_one (xs : List α) : (chunks 1 xs.length xs).flatten = xs := by
  induction xs with
  | nil => rfl
  | cons x xs ih => simp [chunks, ih]

/-- A vector already has its own shape. -/
@[simp] theorem stretch?_vector (xs : List α) : (vector xs).stretch? [xs.length] = some xs := by
  have whole : ∀ parts : List (List α), parts.mapM (fun part => some part) = some parts := by
    intro parts
    induction parts with
    | nil => rfl
    | cons part parts ih => simp [List.mapM_cons, ih]
  simp [stretch?, repeatTo?, volume, whole, flatten_chunks_one]

@[simp] theorem stretched_vector (xs : List α) : (vector xs).stretched [xs.length] = vector xs := by
  rw [stretched, stretch?_vector]
  rfl

/-- **The shape to which arrays of two shapes can both be stretched.** Shapes are compared from their ends;
a missing axis counts as one of length one. -/
def commonShape? (s t : List Nat) : Option (List Nat) :=
  (join s.reverse t.reverse).map List.reverse
where
  join : List Nat → List Nat → Option (List Nat)
    | [], t => some t
    | s, [] => some s
    | m :: s, n :: t =>
      if m = n ∨ n = 1 then (join s t).map (m :: ·)
      else if m = 1 then (join s t).map (n :: ·)
      else none

/-! ## As arguments -/

/-- Entries nested in lists along the axes. -/
def nest (f : α → Arg) : List Nat → List α → Arg
  | [], xs => (xs.head?.map f).getD .absent
  | n :: shape, xs => .list ((chunks (volume shape) n xs).map (nest f shape))

/-- **An array as an argument.** -/
def toArg (f : α → Arg) (g : Grid α) : Arg := nest f g.shape g.entries

end Grid

end Milp
