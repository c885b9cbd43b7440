import Milp.Proofs.Batch.Sequential
import Milp.Proofs.Model.Parts
import Milp.Proofs.Model.WellFormed

/-!
# Reachable models are well-formed

The invariant of models is kept by every edit. Here it is carried through whole runs: any calls on any
models that share a cache, in any order, accepted or refused.

* `Workspace.WellFormed` — all models are well-formed, and the cache that they share is sound.
* `WellFormed.call` and `WellFormed.run` — one call, and calls in a row.
* `Model.SameFrame` — what no call changes: `Workspace.sameFrame_run`.
* `representation_invariant` — the invariant of every workspace that can be reached, spelled out.
* `Model.Reachable.wellFormed` — every model that can be made is well-formed.
* `Model.reachable_appendAll` — a blank model with any rows that fit can be made.
-/

namespace Milp

namespace Workspace

/-- **The invariant of workspaces.** -/
structure WellFormed (w : Workspace) : Prop where
  models : ∀ m ∈ w.models, m.WellFormed
  cache : w.cache.Sound

theorem wellFormed_empty (signing : Signing) : (empty signing).WellFormed where
  models := by
    intro m hm
    cases hm
  cache := RowCache.sound_empty signing

variable {w : Workspace}

/-- A well-formed model may take the place of another. -/
theorem WellFormed.put (h : w.WellFormed) (i : Nat) {m : Model} (hm : m.WellFormed) :
    (w.put i m).WellFormed where
  models := by
    intro m' hm'
    rcases List.mem_or_eq_of_mem_set hm' with hold | rfl
    · exact h.models m' hold
    · exact hm
  cache := h.cache

/-- **Every call keeps the invariant.** -/
theorem WellFormed.call (h : w.WellFormed) (c : Call) : (w.call c).1.WellFormed := by
  have hcalled := w.called c
  generalize w.call c = after at hcalled ⊢
  cases hcalled with
  | created hcreate =>
    refine ⟨List.forall_mem_append.mpr ⟨h.models, ?_⟩, h.cache⟩
    intro m' hm'
    rw [List.mem_singleton.mp hm']
    exact Model.wellFormed_create hcreate
  | @edited i e m m' cache hit hm happly =>
    obtain ⟨hsound, hresult⟩ := (h.models m (List.mem_of_getElem? hm)).apply h.cache e happly
    have hcache : Workspace.WellFormed { w with cache := cache } := ⟨h.models, hsound⟩
    exact hcache.put i (hresult m' hit rfl)
  | notEdited hm happly =>
    exact ⟨h.models, ((h.models _ (List.mem_of_getElem? hm)).apply h.cache _ happly).1⟩
  | frozen hm => exact h.put _ (h.models _ (List.mem_of_getElem? hm)).freeze
  | notCreated | nothingToEdit | nothingToFreeze => exact h

/-- **Calls in a row keep the invariant.** -/
theorem WellFormed.run (h : w.WellFormed) (calls : List Call) : (w.run calls).WellFormed := by
  induction calls generalizing w with
  | nil => exact h
  | cons c rest ih =>
    rw [run_cons]
    exact ih (h.call c)

end Workspace

/-! ## What stays -/

/-- **What no call changes** in a model: the width, the guess at the number of rows, and the infinity. -/
structure Model.SameFrame (m m' : Model) : Prop where
  columns : m'.columns = m.columns
  rowsHint : m'.rowsHint = m.rowsHint
  infinity : m'.infinity = m.infinity

theorem Model.SameFrame.rfl {m : Model} : m.SameFrame m where
  columns := Eq.refl _
  rowsHint := Eq.refl _
  infinity := Eq.refl _

theorem Model.SameFrame.trans {m m' m'' : Model} (h : m.SameFrame m') (h' : m'.SameFrame m'') :
    m.SameFrame m'' where
  columns := h'.columns.trans h.columns
  rowsHint := h'.rowsHint.trans h.rowsHint
  infinity := h'.infinity.trans h.infinity

/-- **Every accepted edit keeps the frame**, and does not freeze the model. -/
theorem Edit.kept {e : Edit} {m m' : Model} {cache cache' : RowCache} {hit : Option Bool}
    (h : e.apply m cache = (cache', .ok (m', hit))) : m.SameFrame m' ∧ m'.frozen = m.frozen := by
  obtain ⟨b, rfl⟩ := Edit.exists_withPart (congrArg Prod.snd h)
  cases e.part <;> exact ⟨⟨rfl, rfl, rfl⟩, rfl⟩

theorem Edit.sameFrame {e : Edit} {m m' : Model} {cache cache' : RowCache} {hit : Option Bool}
    (h : e.apply m cache = (cache', .ok (m', hit))) : m.SameFrame m' := (Edit.kept h).1

namespace Workspace

variable {w : Workspace}

/-- **Every call keeps the frames of all models.** -/
theorem sameFrame_call {i : Nat} {m : Model} (hm : w.models[i]? = some m) (c : Call) :
    ∃ m', (w.call c).1.models[i]? = some m' ∧ m.SameFrame m' := by
  have hcalled := w.called c
  generalize w.call c = after at hcalled ⊢
  cases hcalled with
  | created hcreate =>
    obtain ⟨hi, -⟩ := List.getElem?_eq_some_iff.mp hm
    exact ⟨m, (List.getElem?_append_left hi).trans hm, .rfl⟩
  | @edited j e m₁ m' cache hit hj happly =>
    by_cases hji : j = i
    · subst hji
      cases Option.some.inj (hj.symm.trans hm)
      exact ⟨m', models_put (w := { w with cache := cache }) hm m', Edit.sameFrame happly⟩
    · exact ⟨m, (models_put_of_ne hji m').trans hm, .rfl⟩
  | @frozen j m₁ hj =>
    by_cases hji : j = i
    · subst hji
      cases Option.some.inj (hj.symm.trans hm)
      exact ⟨m.freeze, models_put hm m.freeze, ⟨rfl, rfl, rfl⟩⟩
    · exact ⟨m, (models_put_of_ne hji m₁.freeze).trans hm, .rfl⟩
  | notEdited | notCreated | nothingToEdit | nothingToFreeze => exact ⟨m, hm, .rfl⟩

/-- **Calls in a row keep the frames of all models.** -/
theorem sameFrame_run {i : Nat} {m : Model} (hm : w.models[i]? = some m) (calls : List Call) :
    ∃ m', (w.run calls).models[i]? = some m' ∧ m.SameFrame m' := by
  induction calls generalizing w m with
  | nil => exact ⟨m, hm, .rfl⟩
  | cons c rest ih =>
    obtain ⟨m₁, hm₁, hframe⟩ := sameFrame_call hm c
    obtain ⟨m', hm', hframe'⟩ := ih hm₁
    exact ⟨m', hm', hframe.trans hframe'⟩

/-! ## The invariant of a run -/

/-- **The invariant of all models that share a row cache**, after any calls, accepted or refused. Every model
is well-formed, and its rows are as wide as their largest index says; every row in the cache fits some width;
and all models keep the width and the infinity that they were created with. A row is stored together with
its bounds, so there are always as many of the one as of the others. -/
theorem representation_invariant (signing : Signing) (calls : List Call) :
    let w := (empty signing).run calls
    (∀ m ∈ w.models, m.WellFormed ∧ ∀ r ∈ m.rows, IsLargest r.row.indices r.row.maxIndex) ∧
      (∀ s ∈ w.cache.rows, ∃ n, s.row.Fits n) ∧
      (∀ columns rowsHint infinity m, Model.create columns rowsHint infinity = .ok m →
        columns.int? = some (m.columns : Int) ∧ infinity.toNumber = .ok m.infinity) ∧
      ∀ (i : Nat) m, w.models[i]? = some m → ∀ later,
        ∃ m', (w.run later).models[i]? = some m' ∧ m'.columns = m.columns ∧ m'.infinity = m.infinity := by
  intro w
  have hw : w.WellFormed := (wellFormed_empty signing).run calls
  refine ⟨?_, hw.cache, ?_, ?_⟩
  · intro m hm
    exact ⟨hw.models m hm, fun r _ => r.row.maxIndex_eq.symm ▸ isLargest_largest r.row.indices⟩
  · intro columns rowsHint infinity m h
    obtain ⟨n, hint, I, hcolumns, hinfinity, -, rfl⟩ := Model.create_eq_ok h
    exact ⟨hcolumns, hinfinity⟩
  · intro i m hm later
    obtain ⟨m', hm', hframe⟩ := sameFrame_run hm later
    exact ⟨m', hm', hframe.columns, hframe.infinity⟩

end Workspace

/-- **Every reachable model is well-formed.** -/
theorem Model.Reachable.wellFormed {m : Model} (h : m.Reachable) : m.WellFormed := by
  obtain ⟨signing, calls, hm⟩ := h
  exact ((Workspace.wellFormed_empty signing).run calls).models m hm

/-- Any width below the limit can be asked for, with any guess at the number of rows and any infinity. -/
theorem Model.create_of_counts {n : Nat} (hn : n < entryLimit) (k : Nat) (I : Binary64) :
    create (.int n) (.int k) (.float I) = .ok (blank n k I) := by
  have hneg : ¬ (n : Int) < 0 := by omega
  have hhint : ¬ (!(Arg.Real.int 0).le (Arg.Real.int k)) = true := by simp [Arg.Real.le]
  have hentries : checkEntries n = .ok () := by rw [checkEntries, if_pos hn]
  simp only [create, Arg.int?, Arg.real?]
  rw [if_neg hneg, if_neg hhint, Int.toNat_natCast, hentries]
  rfl

theorem Model.create_eq {n : Nat} (hn : n < entryLimit) (I : Binary64) :
    create (.int n) (.int 0) (.float I) = .ok (blank n 0 I) := create_of_counts hn 0 I

/-- **A blank model with any rows that fit can be made**, row by row. -/
theorem Model.reachable_appendAll {n : Nat} (hn : n < entryLimit) (I : Binary64)
    {rows : List BoundedRow} (h : ∀ r ∈ rows, r.Fits n) : ((blank n 0 I).appendAll rows).Reachable := by
  refine ⟨.digest, .create (.int n) (.int 0) (.float I) :: Workspace.rowCalls 0 rows, ?_⟩
  have hcall : ((Workspace.empty .digest).call (.create (.int n) (.int 0) (.float I))).1 =
      ⟨[blank n 0 I], RowCache.empty .digest⟩ := by
    simp only [Workspace.call, create_eq hn]
    rfl
  rw [Workspace.run_cons, hcall, Workspace.run_rowCalls (m := blank n 0 I) rfl rfl h]
  exact List.mem_cons_self

end Milp
