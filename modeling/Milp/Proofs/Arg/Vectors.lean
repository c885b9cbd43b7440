import Milp.Arg.Vector
import Milp.Proofs.Steps

/-!
# What a checked vector holds

An array has as many entries as its shape has room for. So a vector that has passed its checks has the
length that was asked for, whatever argument it was read from.

* `length_entries` — the entries of evenly nested lists fill their shape.
* `numberVector_ok` and `length_of_flagVector` — length and contents of the checked vectors.
-/

namespace Milp

/-! ## Shapes and entries -/

theorem Grid.volume_cons (n : Nat) (s : List Nat) : Grid.volume (n :: s) = n * Grid.volume s := by
  have hfold : ∀ (s : List Nat) (k : Nat), s.foldl (· * ·) k = k * s.foldl (· * ·) 1 := by
    intro s
    induction s with
    | nil => simp
    | cons a rest ih =>
      intro k
      rw [List.foldl_cons, List.foldl_cons, ih (k * a), ih (1 * a), Nat.one_mul, Nat.mul_assoc]
  rw [Grid.volume, List.foldl_cons, hfold, Nat.one_mul]
  rfl

namespace Arg

mutual

/-- **The entries of evenly nested lists fill their shape.** -/
theorem length_entries {a : Arg} {s : List Nat} (h : a.nesting? = some s) :
    a.entries.length = Grid.volume s := by
  match a with
  | absent | flag _ | int _ | float _ | text _ | record _ =>
    cases Option.some.inj h
    rfl
  | list items => exact length_entriesOf h

theorem length_entriesOf {items : List Arg} {s : List Nat} (h : nestingOf? items = some s) :
    (entriesOf items).length = Grid.volume s := by
  match items with
  | [] =>
    cases Option.some.inj h
    rfl
  | a :: rest =>
    rw [nestingOf?] at h
    split at h
    · rename_i s' n t ha hrest
      split at h
      · rename_i hsame
        cases Option.some.inj h
        have htail := length_entriesOf hrest
        rw [entriesOf, List.length_append, length_entries ha, htail, Grid.volume_cons,
          Grid.volume_cons]
        rcases Bool.or_eq_true _ _ ▸ hsame with hempty | hst
        · -- the shape of an empty rest is not compared: it has no entries at all
          rw [List.isEmpty_iff.mp hempty] at hrest htail
          cases Option.some.inj hrest
          simp
        · rw [of_decide_eq_true hst]
          rw [Nat.succ_mul, Nat.add_comm]
      · cases h
    · cases h

end

/-! ## Single values -/

/-- An integer is rounded to the format, and refused beyond it. -/
theorem toEntry_int_eq_ok_iff {n : Int} {x : Binary64} :
    (int n).toEntry = .ok x ↔ Binary64.ofInt n = x ∧ x.isFinite = true :=
  elim_eq_ok_iff.trans Binary64.finite?_eq_some_iff

/-- A text is read as a numeral. -/
theorem toEntry_text_eq_ok_iff {s : String} {x : Binary64} :
    (text s).toEntry = .ok x ↔ Numeral.number? s = some x :=
  elim_eq_ok_iff

/-! ## Arrays -/

theorem length_of_mapM {α β : Type} {f : α → Except Error β} {xs : List α} {ys : List β}
    (h : xs.mapM f = .ok ys) : ys.length = xs.length :=
  (mapM_eq_ok_iff.mp h).length_eq.symm

/-- An array has as many entries as its shape has room for. -/
theorem length_array {α : Type} {read : Arg → Except Error α} {a : Arg} {g : Grid α}
    (h : a.array read = .ok g) : g.entries.length = Grid.volume g.shape := by
  unfold array at h
  split at h
  · cases h
  · rename_i shape hshape
    obtain ⟨xs, hxs, h⟩ := bind_eq_ok_iff.mp h
    cases h
    rw [length_of_mapM hxs]
    unfold shape? at hshape
    split at hshape
    · rename_i s hs
      split at hshape
      · cases hshape
        exact length_entries hs
      · cases hshape
    · cases hshape

/-- An array with one axis has as many entries as the axis is long. -/
theorem length_vector {α : Type} {read : Arg → Except Error α} {a : Arg} {n : Nat} {xs : List α}
    (h : a.array read = .ok ⟨[n], xs⟩) : xs.length = n := by
  have hlength := length_array h
  simpa only [Grid.volume, List.foldl_cons, List.foldl_nil, Nat.one_mul] using hlength

end Arg

/-! ## Checked vectors -/

/-- An integer counts exactly itself. -/
@[simp] theorem Arg.isCount_int (n : Int) (k : Nat) :
    (Arg.int n).isCount k = true ↔ n = k := by
  simp [Arg.isCount, Arg.real?, Arg.Real.same]

/-- **A vector of numbers has the length that was asked for**, and no NaN. -/
theorem numberVector_ok {values expected : Arg} {name : String} {xs : List Binary64}
    (h : numberVector values expected name = .ok xs) :
    expected.isCount xs.length = true ∧ ∀ x ∈ xs, x.isNaN = false := by
  unfold numberVector at h
  split at h
  · cases h
  · rename_i k ys hvalues
    split at h
    · cases h
    rename_i hcount
    split at h
    · cases h
    rename_i hnan
    cases h
    have hlength : xs.length = k := Arg.length_vector hvalues
    exact ⟨by simpa [hlength] using hcount, by simpa using hnan⟩
  · cases h

/-- A vector of numbers for an integer has that many entries. -/
theorem length_of_numberVector {values : Arg} {n : Int} {name : String} {xs : List Binary64}
    (h : numberVector values (.int n) name = .ok xs) : (xs.length : Int) = n :=
  ((Arg.isCount_int n xs.length).mp (numberVector_ok h).1).symm

/-- A vector of flags has the length that was asked for. -/
theorem length_of_flagVector {values : Arg} {n : Nat} {flags : List Bool}
    (h : flagVector values n = .ok flags) : flags.length = n := by
  unfold flagVector at h
  split at h
  · cases h
  · rename_i k bs hvalues
    split at h
    · rename_i hk
      cases h
      rw [Arg.length_vector hvalues, hk]
    · cases h
  · cases h

/-- All entries passed the check of finiteness. -/
theorem checkFinite_eq_ok_iff {xs : List Binary64} {name : String} :
    checkFinite xs name = .ok () ↔ ∀ x ∈ xs, x.isFinite = true := by
  unfold checkFinite
  split
  · rename_i h
    exact ⟨fun _ => List.all_eq_true.mp h, fun _ => rfl⟩
  · rename_i h
    constructor
    · intro hok
      cases hok
    · intro hall
      exact absurd (List.all_eq_true.mpr hall) h

end Milp
