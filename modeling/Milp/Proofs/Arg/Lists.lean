import Milp.Arg.Vector
import Milp.Proofs.Steps

/-!
# Flat lists

A list of numbers or of positions, handed over as an argument, is read back entry by entry.

* `coefficientVector_ofFloats` and `numberVector_ofFloats` — lists of numbers.
* `indexVector_ofPositions` — lists of positions.
-/

namespace Milp

namespace Arg

/-- A list of positions as an argument. -/
def ofPositions (xs : List Int64) : Arg := list (xs.map fun i => int i.toInt)

/-! ## Shape and entries -/

section FlatLists

variable {items : List Arg}

/-- A list of single values has one axis. -/
theorem nestingOf?_flat (h : ∀ a ∈ items, a.nesting? = some []) : nestingOf? items = some [items.length] := by
  induction items with
  | nil => rfl
  | cons a rest ih =>
    obtain ⟨ha, hrest⟩ := List.forall_mem_cons.mp h
    simp only [nestingOf?, ha, ih hrest, List.length_cons]
    cases rest <;> simp

/-- Its entries are the values. -/
theorem entriesOf_flat (h : ∀ a ∈ items, a.entries = [a]) : entriesOf items = items := by
  induction items with
  | nil => rfl
  | cons a rest ih =>
    obtain ⟨ha, hrest⟩ := List.forall_mem_cons.mp h
    rw [entriesOf, ha, ih hrest]
    rfl

theorem shape?_flat (h : ∀ a ∈ items, a.nesting? = some []) : (list items).shape? = some [items.length] := by
  simp [shape?, nesting?, nestingOf?_flat h, maxAxes]

variable {α : Type} {f : α → Arg}

theorem entriesOf_map (hf : ∀ x, (f x).entries = [f x]) (xs : List α) :
    entriesOf (xs.map f) = xs.map f :=
  entriesOf_flat (List.forall_mem_map.mpr fun x _ => hf x)

theorem shape?_map (hf : ∀ x, (f x).nesting? = some []) (xs : List α) :
    (list (xs.map f)).shape? = some [xs.length] := by
  rw [shape?_flat (List.forall_mem_map.mpr fun x _ => hf x), List.length_map]

end FlatLists

theorem entries_ofFloats (xs : List Binary64) : (ofFloats xs).entries = xs.map float :=
  entriesOf_map (fun _ => rfl) xs

theorem entries_ofPositions (xs : List Int64) :
    (ofPositions xs).entries = xs.map fun i => int i.toInt :=
  entriesOf_map (fun _ => rfl) xs

theorem shape?_ofFloats (xs : List Binary64) : (ofFloats xs).shape? = some [xs.length] :=
  shape?_map (fun _ => rfl) xs

theorem shape?_ofPositions (xs : List Int64) : (ofPositions xs).shape? = some [xs.length] :=
  shape?_map (fun _ => rfl) xs

theorem mapM_toEntry_float (xs : List Binary64) : (xs.map float).mapM toEntry = .ok xs := by
  rw [mapM_eq_ok_iff, List.forall₂_map_left_iff, List.forall₂_same]
  exact fun x _ => rfl

theorem numberArray_ofFloats (xs : List Binary64) :
    (ofFloats xs).numberArray = .ok (.vector xs) := by
  simp only [numberArray, array, shape?_ofFloats, entries_ofFloats, mapM_toEntry_float]
  rfl

end Arg

/-! ## Vectors -/

open Arg (ofFloats ofPositions)

/-- A list of numbers is read back as coefficients. -/
theorem coefficientVector_ofFloats (xs : List Binary64) (name : String) :
    coefficientVector (ofFloats xs) name = .ok xs := by
  simp only [coefficientVector, Arg.numberArray_ofFloats, Grid.vector, Grid.volume, List.foldl_cons,
    List.foldl_nil, Nat.one_mul, List.length_cons, List.length_nil]
  split
  · rename_i h
    rw [List.length_eq_zero_iff.mp h]
  · rfl

/-- A list of numbers without NaN is read back as a vector of its own length. -/
theorem numberVector_ofFloats {xs : List Binary64} (h : ∀ x ∈ xs, x.isNaN = false) {n : Nat}
    (hn : xs.length = n) (name : String) : numberVector (ofFloats xs) (.int n) name = .ok xs := by
  have hany : xs.any Binary64.isNaN = false := by
    rw [List.any_eq_false]
    intro x hx
    simp [h x hx]
  simp [numberVector, Arg.numberArray_ofFloats, Grid.vector, Arg.isCount, Arg.real?, Arg.Real.same,
    hn, hany]

/-- A vector of the wrong length is refused. -/
theorem numberVector_ofFloats_of_length {xs : List Binary64} {n : Nat} (hn : xs.length ≠ n) (name : String) :
    numberVector (ofFloats xs) (.int n) name = .error (.wrongCount name xs.length (.int n)) := by
  have hne : ¬ (n : Int) = xs.length := by omega
  have hcount : (Arg.int n).isCount xs.length = false := by simp [Arg.isCount, Arg.real?, Arg.Real.same, hne]
  simp [numberVector, Arg.numberArray_ofFloats, Grid.vector, hcount]

theorem common_positions {xs : List Int64} (h : xs ≠ []) :
    EntryType.common (xs.map fun i => .int i.toInt) = .signed := by
  have single : ∀ i : Int64, EntryType.ofArg (.int i.toInt) = .signed := by
    intro i
    rw [EntryType.ofArg, if_pos ⟨i.minValue_le_toInt, i.toInt_le⟩]
  cases xs with
  | nil => exact absurd rfl h
  | cons x rest =>
    simp only [List.map_cons, EntryType.common, single]
    clear h
    induction rest with
    | nil => rfl
    | cons y rest ih => rw [List.map_cons, List.foldl_cons, single]; exact ih

/-- A list of positions is read back. -/
theorem indexVector_ofPositions (xs : List Int64) (name : String) :
    indexVector (ofPositions xs) name = .ok xs := by
  simp only [indexVector, Arg.shape?_ofPositions, Arg.entries_ofPositions, Grid.volume,
    List.foldl_cons, List.foldl_nil, Nat.one_mul, List.length_cons, List.length_nil]
  split
  · rename_i h
    rw [List.length_eq_zero_iff.mp h]
  · rename_i h
    have hne : xs ≠ [] := fun hx => h (by simp [hx])
    simp [positions, common_positions hne, Function.comp_def, Arg.int?]

end Milp
