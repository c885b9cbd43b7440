import Milp.Proofs.Instance.Edits
import Milp.Proofs.Model.WellFormed

/-!
# Column vectors that are taken as they are

An open model takes vectors of its width unchanged: bounds that are boxes, since these are not moved to infinity, an
objective and start values that are finite, and any flags.

* `forall_mem_of_zip` — what holds of pairs, for each of two lists.
* `Edit.plain_of_ok` — an edit that is not about the row cache.
* `setColumnBounds_of_boxes`, `setObjective_of_finite`, `setColumnStart_of_finite` and `setColumnInteger_of_flags`.
-/

namespace Milp

/-- What holds of both parts of all pairs holds of all entries of two lists of one length. -/
theorem forall_mem_of_zip {α β : Type} {P : α → Prop} {Q : β → Prop} {xs : List α} {ys : List β}
    (hlength : xs.length = ys.length) (h : ∀ p ∈ xs.zip ys, P p.1 ∧ Q p.2) :
    (∀ x ∈ xs, P x) ∧ ∀ y ∈ ys, Q y := by
  have hfst : (xs.zip ys).map Prod.fst = xs := List.map_fst_zip hlength.le
  have hsnd : (xs.zip ys).map Prod.snd = ys := List.map_snd_zip hlength.ge
  constructor
  · intro x hx
    rw [← hfst] at hx
    obtain ⟨p, hp, rfl⟩ := List.mem_map.mp hx
    exact (h p hp).1
  · intro y hy
    rw [← hsnd] at hy
    obtain ⟨p, hp, rfl⟩ := List.mem_map.mp hy
    exact (h p hp).2

namespace IsBox

variable {I lo hi : Binary64}

/-- The lower bound of a box passes its check and is not moved. -/
theorem lower_taken (h : IsBox I lo hi) : lo.isNaN = false ∧ ¬ I.le lo = true ∧ lo.maximum I.neg = lo :=
  ⟨(Binary64.not_isNaN_of_le h.inOrder).1, Binary64.not_le_of_lt h.lo_lt, Binary64.maximum_of_le h.lo_ge⟩

/-- The upper bound of a box passes its check and is not moved. -/
theorem upper_taken (h : IsBox I lo hi) : hi.isNaN = false ∧ ¬ hi.le I.neg = true ∧ hi.minimum I = hi :=
  ⟨(Binary64.not_isNaN_of_le h.inOrder).2, Binary64.not_le_of_lt h.hi_gt, Binary64.minimum_of_le h.hi_le⟩

end IsBox

/-- Finite numbers are numbers. -/
theorem numbers_of_finite {xs : List Binary64} (h : ∀ x ∈ xs, x.isFinite = true) : ∀ x ∈ xs, x.isNaN = false :=
  fun x hx => Binary64.not_isNaN_of_place? (Binary64.place?_of_isFinite (h x hx))

/-- **An edit that is not about the row cache** is taken as soon as its step is, and leaves the cache alone. -/
theorem Edit.plain_of_ok {e : Edit} {m m' : Model} {cache : RowCache} {step : Except Error Model}
    (happly : e.apply m cache = (cache, step.map (·, none))) (h : step = .ok m') :
    e.apply m cache = (cache, .ok (m', none)) := by
  rw [happly, h]
  rfl

namespace Model

variable {m : Model} {xs los his : List Binary64}

/-- **Boxes are taken as they are**, since they end within infinity. -/
theorem setColumnBounds_of_boxes (hopen : m.frozen = false) (hlower : los.length = m.columns)
    (hupper : his.length = m.columns) (hboxes : ∀ b ∈ los.zip his, IsBox m.infinity b.1 b.2) :
    m.setColumnBounds (.ofFloats los) (.ofFloats his) = .ok { m with lower := los, upper := his } := by
  obtain ⟨hlos, hhis⟩ := forall_mem_of_zip
    (P := fun x => x.isNaN = false ∧ ¬ m.infinity.le x = true ∧ x.maximum m.infinity.neg = x)
    (Q := fun x => x.isNaN = false ∧ ¬ x.le m.infinity.neg = true ∧ x.minimum m.infinity = x)
    (hlower.trans hupper.symm) fun b hb => ⟨(hboxes b hb).lower_taken, (hboxes b hb).upper_taken⟩
  have hordered : ∀ b ∈ los.zip his, ¬ b.2.lt b.1 = true := by
    intro b hb
    have hbox := hboxes b hb
    exact (Binary64.not_lt_iff hbox.upper_taken.1 hbox.lower_taken.1).mpr hbox.inOrder
  have hlosame : los = los.map fun x => x.maximum m.infinity.neg :=
    (List.map_congr_left fun x hx => (hlos x hx).2.2).trans (List.map_id _) |>.symm
  have hhisame : his = his.map fun x => x.minimum m.infinity :=
    (List.map_congr_left fun x hx => (hhis x hx).2.2).trans (List.map_id _) |>.symm
  refine setColumnBounds_eq_ok_iff.mpr ⟨hopen, los, his, numberVector_ofFloats (fun x hx => (hlos x hx).1) hlower _,
    numberVector_ofFloats (fun x hx => (hhis x hx).1) hupper _, fun x hx => (hlos x hx).2.1,
    fun x hx => (hhis x hx).2.1, hordered, ?_⟩
  rw [← hlosame, ← hhisame]

/-- Finite coefficients are taken. -/
theorem setObjective_of_finite (hopen : m.frozen = false) (hlength : xs.length = m.columns)
    (hfinite : ∀ x ∈ xs, x.isFinite = true) : m.setObjective (.ofFloats xs) = .ok { m with objective := xs } :=
  setObjective_eq_ok_iff.mpr
    ⟨hopen, xs, numberVector_ofFloats (numbers_of_finite hfinite) hlength _, hfinite, rfl⟩

/-- Finite start values are taken. -/
theorem setColumnStart_of_finite (hopen : m.frozen = false) (hlength : xs.length = m.columns)
    (hfinite : ∀ x ∈ xs, x.isFinite = true) : m.setColumnStart (.ofFloats xs) = .ok { m with start := some xs } :=
  setColumnStart_eq_ok_iff.mpr
    ⟨hopen, xs, numberVector_ofFloats (numbers_of_finite hfinite) hlength _, hfinite, rfl⟩

/-- Flags are taken. -/
theorem setColumnInteger_of_flags (hopen : m.frozen = false) {bs : List Bool} (hlength : bs.length = m.columns) :
    m.setColumnInteger (.ofFlags bs) = .ok { m with integer := bs } :=
  setColumnInteger_eq_ok_iff.mpr ⟨hopen, bs, hlength ▸ flagVector_ofFlags bs, rfl⟩

end Model

end Milp
