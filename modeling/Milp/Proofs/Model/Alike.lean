import Mathlib.Data.List.Forall2
import Milp.Proofs.Model.Parts
import Milp.Proofs.Model.Sharing

/-!
# Models that look the same

Edits do not look at the rows that a model already has, and the row cache shows in nothing but the sign of a
zero. So models that differ in such signs only go on doing so, whatever caches they use.

* `SameOutcome` — outcomes that are refused for the same kind of cause, or accepted with related results.
* `Model.bare` and `Edit.apply_bare` — an edit does to a model what it does to the model without its rows.
* `Model.Alike` — the same model, rows compared as the row cache compares them.
* `Model.Alike.apply` — edits of such models come to the same, with any sound caches.
-/

namespace Milp

/-! ## Outcomes that come to the same -/

/-- **Two outcomes come to the same**: both are refused, for the same kind of cause, or both are accepted, with
related results. -/
inductive SameOutcome {α β : Type} (R : α → β → Prop) : Except Error α → Except Error β → Prop where
  | refused {e e' : Error} (hcategory : e.category = e'.category) : SameOutcome R (.error e) (.error e')
  | accepted {a : α} {b : β} (hrelated : R a b) : SameOutcome R (.ok a) (.ok b)

theorem SameOutcome.map {α β γ δ : Type} {R : α → β → Prop} {S : γ → δ → Prop} {x : Except Error α}
    {y : Except Error β} {f : α → γ} {g : β → δ} (h : SameOutcome R x y)
    (hrelated : ∀ a b, R a b → S (f a) (g b)) : SameOutcome S (x.map f) (y.map g) := by
  cases h with
  | refused hcategory => exact .refused hcategory
  | accepted hab => exact .accepted (hrelated _ _ hab)

/-- An outcome comes to the same as itself, if its result is related to itself. -/
theorem SameOutcome.refl {α : Type} {R : α → α → Prop} {x : Except Error α} (h : ∀ a, x = .ok a → R a a) :
    SameOutcome R x x := by
  cases x with
  | error e => exact .refused rfl
  | ok a => exact .accepted (h a rfl)

/-! ## Models without rows -/

namespace Model

/-- **The model without its rows.** -/
def bare (m : Model) : Model := { m with rows := [] }

/-- The model with more rows before its own. -/
def under (rows : List BoundedRow) (m : Model) : Model := { m with rows := rows ++ m.rows }

theorem WellFormed.bare {m : Model} (h : m.WellFormed) : m.bare.WellFormed := { h with rows_fit := nofun }

/-- A part that is put into a bare model is put into the model itself. -/
theorem under_withPart_bare (m : Model) (p : Part) (b : Model) :
    (m.bare.withPart p b).under m.rows = m.withPart p b := by
  cases p with
  | rows => rfl
  | objective | bounds | start | integer => simp [withPart, under, Model.bare]

end Model

/-- **An edit does not look at the rows** that a model already has. -/
theorem Edit.apply_bare (e : Edit) (m : Model) (cache : RowCache) :
    e.apply m cache =
      ((e.apply m.bare cache).1, (e.apply m.bare cache).2.map fun p => (p.1.under m.rows, p.2)) := by
  have hframe : m.bare.frame = m.frame := rfl
  rw [e.apply_frame m, e.apply_frame m.bare, hframe]
  cases (e.apply m.frame cache).2 with
  | error refusal => rfl
  | ok b =>
    show (_, Except.ok (m.withPart e.part b.1, b.2)) = (_, Except.ok ((m.bare.withPart e.part b.1).under m.rows, b.2))
    rw [Model.under_withPart_bare]

/-! ## Models that differ in the signs of zeros -/

/-- **Rows that look the same**: the same bounds, the same columns, and equal numbers. -/
structure BoundedRow.Alike (r s : BoundedRow) : Prop where
  row : r.row.Alike s.row
  lo : r.lo = s.lo
  hi : r.hi = s.hi

theorem BoundedRow.Fits.alike {r : BoundedRow} {n : Nat} (h : r.Fits n) : r.Alike r := ⟨h.1.alike, rfl, rfl⟩

/-- **Models that look the same**: they differ in their rows only, and these look the same. -/
structure Model.Alike (m m' : Model) : Prop where
  bare : m.bare = m'.bare
  rows : List.Forall₂ BoundedRow.Alike m.rows m'.rows

namespace Model

variable {m m' : Model} {cache cache' : RowCache}

/-- A well-formed model looks like itself. A model with NaN in a row would not. -/
theorem WellFormed.alike (hm : m.WellFormed) : m.Alike m :=
  ⟨rfl, List.forall₂_same.mpr fun r hr => (hm.rows_fit r hr).alike⟩

theorem Alike.append (h : m.Alike m') {r s : Row} (hrow : r.Alike s) (lo hi : Binary64) :
    (m.append r lo hi).Alike (m'.append s lo hi) where
  bare := h.bare
  rows := List.rel_append h.rows (.cons ⟨hrow, rfl, rfl⟩ .nil)

theorem Alike.under {rows rows' : List BoundedRow} (h : m.Alike m')
    (hrows : List.Forall₂ BoundedRow.Alike rows rows') : (m.under rows).Alike (m'.under rows') where
  bare := h.bare
  rows := List.rel_append hrows h.rows

theorem Alike.freeze (h : m.Alike m') : m.freeze.Alike m'.freeze where
  bare := congrArg Model.freeze h.bare
  rows := h.rows

/-- What does not depend on the rows of a model is the same for both. -/
theorem Alike.eq_of_bare {β : Type} (h : m.Alike m') (f : Model → β) (hf : ∀ m : Model, f m.bare = f m) :
    f m = f m' := by
  rw [← hf m, h.bare, hf m']

/-- Rows that are added alike make models that look the same. -/
theorem SameAddition.sameOutcome {x y : Except Error (Model × Option Bool)} (h : SameAddition m True x y)
    (hm : m.WellFormed) : SameOutcome (fun p p' => p.1.Alike p'.1) x y := by
  cases h with
  | refused hcategory => exact .refused (hcategory trivial)
  | added hrow _ => exact .accepted (hm.alike.append hrow _ _)

/-- **What a row cache has been used for does not show** in an edit, but for the signs of zeros. -/
theorem WellFormed.sameOutcome_apply (hm : m.WellFormed) (hcache : cache.Sound) (hcache' : cache'.Sound)
    (e : Edit) : SameOutcome (fun p p' => p.1.Alike p'.1) (e.apply m cache).2 (e.apply m cache').2 := by
  rcases e.apply_plain_or_cachedRow with ⟨step, hplain⟩ | ⟨coeffs, indices, lo, hi, rfl⟩
  · -- an edit that does not use the cache comes to one and the same
    have heq : (e.apply m cache').2 = (e.apply m cache).2 := by rw [hplain, hplain]
    rw [heq]
    refine .refl fun p hp => ?_
    exact ((hm.apply hcache e rfl).2 p.1 p.2 hp).alike
  · have hcached := sameAddition_direct (m := m) hcache coeffs indices lo hi
    have hcached' := sameAddition_direct (m := m) hcache' coeffs indices lo hi
    exact (hcached.trans hcached'.symm).sameOutcome hm

/-- **Edits of models that look the same come to the same**, whatever caches are used. -/
theorem Alike.apply (h : m.Alike m') (hm : m.WellFormed) (hcache : cache.Sound) (hcache' : cache'.Sound)
    (e : Edit) : SameOutcome (fun p p' => p.1.Alike p'.1) (e.apply m cache).2 (e.apply m' cache').2 := by
  rw [e.apply_bare m, e.apply_bare m', ← h.bare]
  refine (hm.bare.sameOutcome_apply hcache hcache' e).map ?_
  intro p p' hp
  exact hp.under h.rows

end Model

end Milp
