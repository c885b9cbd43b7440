import Mathlib.Data.List.Forall2

/-!
# Steps that may be refused

Operations are steps in a row, each of which may refuse to go on. What an accepted run went through,
and how two runs compare that are refused in different words.

* `bind_eq_ok_iff`, `map_eq_ok_iff` and `map_pair_eq_ok_iff` — an accepted run was accepted at every step;
  `forM_eq_ok` — and the other way round for the same step on many values; `toOption_eq_some_iff` — a test of it.
* `mapM_eq_ok_iff` and `exists_mapM_eq_ok_iff` — a step on many values whose results are kept.
* `map_bind` — a result may be changed at the end of the last step.
* `mapError_bind` — words for a refusal may be changed before or after; `mapError_eq_ok_iff` and
  `mapError_eq_error_iff` — what came before the change.
-/

namespace Milp

variable {ε ε' α β : Type}

theorem bind_eq_ok_iff {x : Except ε α} {f : α → Except ε β} {b : β} :
    (x >>= f) = .ok b ↔ ∃ a, x = .ok a ∧ f a = .ok b := by
  cases x with
  | error e =>
    constructor
    · intro h
      cases h
    · rintro ⟨a, h, -⟩
      cases h
  | ok a =>
    constructor
    · intro h
      exact ⟨a, rfl, h⟩
    · rintro ⟨a', h, hf⟩
      cases h
      exact hf

theorem map_eq_ok_iff {x : Except ε α} {f : α → β} {b : β} :
    x.map f = .ok b ↔ ∃ a, x = .ok a ∧ f a = b := by
  constructor
  · intro h
    cases x with
    | error e => cases h
    | ok a => exact ⟨a, rfl, Except.ok.inj h⟩
  · rintro ⟨a, rfl, rfl⟩
    rfl

/-- An accepted step whose answer has been put beside its result. -/
theorem map_pair_eq_ok_iff {x : Except ε α} {a : α} {b c : β} :
    x.map (·, b) = .ok (a, c) ↔ x = .ok a ∧ b = c := by
  rw [map_eq_ok_iff]
  constructor
  · rintro ⟨a', hx, hpair⟩
    cases hpair
    exact ⟨hx, rfl⟩
  · rintro ⟨hx, rfl⟩
    exact ⟨a, hx, rfl⟩

/-- A value that may be missing, and a refusal if it is. -/
theorem elim_eq_ok_iff {x? : Option α} {e : ε} {x : α} :
    x?.elim (.error e) .ok = (.ok x : Except ε α) ↔ x? = some x := by
  cases x? with
  | none => exact iff_of_false nofun nofun
  | some y => rw [Option.elim_some, Except.ok.injEq, Option.some.injEq]

/-- What an accepted run gives can be compared where refusals cannot. -/
theorem toOption_eq_some_iff {x : Except ε α} {a : α} : x.toOption = some a ↔ x = .ok a := by
  cases x with
  | error e => exact iff_of_false nofun nofun
  | ok b => exact Option.some_inj.trans (Iff.of_eq (Except.ok.injEq b a)).symm

@[simp] theorem map_pure (a : α) (f : α → β) : (pure a : Except ε α).map f = .ok (f a) := rfl

theorem map_bind {γ : Type} (x : Except ε α) (f : α → Except ε β) (g : β → γ) :
    (x >>= f).map g = (x >>= fun a => (f a).map g) := by
  cases x <;> rfl

/-- Steps that are all accepted are accepted in a row. -/
theorem forM_eq_ok {f : α → Except ε PUnit} {xs : List α} (h : ∀ x ∈ xs, f x = .ok ()) :
    xs.forM f = .ok () := by
  induction xs with
  | nil => rfl
  | cons x rest ih =>
    obtain ⟨hx, hrest⟩ := List.forall_mem_cons.mp h
    show (f x >>= fun _ => rest.forM f) = _
    rw [hx]
    exact ih hrest

/-- A step on many values is accepted if it is accepted on each of them, and gives the results in order. -/
theorem mapM_eq_ok_iff {f : α → Except ε β} {xs : List α} {ys : List β} :
    xs.mapM f = .ok ys ↔ List.Forall₂ (fun x y => f x = .ok y) xs ys := by
  induction xs generalizing ys with
  | nil =>
    rw [List.mapM_nil, List.forall₂_nil_left_iff]
    exact ⟨fun h => (Except.ok.inj h).symm, fun h => congrArg Except.ok h.symm⟩
  | cons x rest ih =>
    rw [List.mapM_cons, bind_eq_ok_iff, List.forall₂_cons_left_iff]
    constructor
    · rintro ⟨y, hy, h⟩
      obtain ⟨zs, hzs, h⟩ := bind_eq_ok_iff.mp h
      exact ⟨y, zs, hy, ih.mp hzs, (Except.ok.inj h).symm⟩
    · rintro ⟨y, zs, hy, hzs, rfl⟩
      exact ⟨y, hy, bind_eq_ok_iff.mpr ⟨zs, ih.mpr hzs, rfl⟩⟩

theorem exists_mapM_eq_ok_iff {f : α → Except ε β} {xs : List α} :
    (∃ ys, xs.mapM f = .ok ys) ↔ ∀ x ∈ xs, ∃ y, f x = .ok y := by
  induction xs with
  | nil => exact iff_of_true ⟨[], rfl⟩ (by simp)
  | cons x rest ih =>
    simp only [mapM_eq_ok_iff] at ih ⊢
    rw [List.forall_mem_cons, ← ih]
    constructor
    · rintro ⟨_, h⟩
      cases h with
      | cons hx hrest => exact ⟨⟨_, hx⟩, _, hrest⟩
    · rintro ⟨⟨y, hx⟩, ys, hrest⟩
      exact ⟨y :: ys, .cons hx hrest⟩

theorem mapError_bind (g : ε → ε') (x : Except ε α) (f : α → Except ε β) :
    (x >>= f).mapError g = (x.mapError g >>= fun a => (f a).mapError g) := by
  cases x <;> rfl

theorem mapError_eq_ok_iff {g : ε → ε'} {x : Except ε α} {a : α} :
    x.mapError g = .ok a ↔ x = .ok a := by
  constructor
  · intro h
    cases x with
    | error e => cases h
    | ok b => rw [Except.ok.inj h]
  · rintro rfl
    rfl

theorem mapError_eq_error_iff {g : ε → ε'} {x : Except ε α} {e' : ε'} :
    x.mapError g = .error e' ↔ ∃ e, x = .error e ∧ g e = e' := by
  constructor
  · intro h
    cases x with
    | error e => exact ⟨e, rfl, Except.error.inj h⟩
    | ok a => cases h
  · rintro ⟨e, rfl, rfl⟩
    rfl

end Milp
