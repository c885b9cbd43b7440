import Milp.Proofs.Model.Atomic

/-!
# What the row cache counts

Models that share a row cache count a hit or a new entry for every row that they add through it. A row that is
refused counts nothing, with one exception: if the cache has the row from a wider model, the hit has been counted
before the columns are looked at, and it stays.

* `Model.asksForWider` and `Workspace.asksForWider` — the exception, for an edit and for a call.
* `Model.cache_of_refused` and `Model.counts_addCachedRow` — the cache after one row, refused or not.
* `counts_call` and `counts_run` — the counts after one call, and after calls in a row.
* `refused_cachedRow_counts` — a refused row, after any calls.
-/

namespace Milp

/-- Counting a hit changes the cache. -/
theorem RowCache.countHit_ne (cache : RowCache) : cache.countHit ≠ cache := by
  intro h
  exact Nat.succ_ne_self cache.hits (congrArg RowCache.hits h)

/-! ## One row -/

namespace Model

variable {m : Model} {cache cache' : RowCache} {coeffs indices lo hi : Arg}

/-- **A row from a wider model is asked for**: the arguments can be read, the cache has a row that agrees with what
has been read, and that row needs more columns than the model has. -/
def asksForWider (m : Model) (cache : RowCache) (coeffs indices lo hi : Arg) : Bool :=
  match m.readCachedRow coeffs indices lo hi with
  | .error _ => false
  | .ok (r, _, _) => (cache.contains (.ofRow r)).toOption.getD false && decide ((m.columns : Int) ≤ r.maxIndex)

theorem asksForWider_of_error {e : Error} (h : m.readCachedRow coeffs indices lo hi = .error e) :
    m.asksForWider cache coeffs indices lo hi = false := by
  rw [asksForWider, h]

theorem asksForWider_of_new {r : Row} {l u : Binary64}
    (h : m.readCachedRow coeffs indices lo hi = .ok (r, l, u)) (hnew : cache.lookup (.ofRow r) = .ok none) :
    m.asksForWider cache coeffs indices lo hi = false := by
  simp only [asksForWider, h, RowCache.contains, hnew]
  rfl

/-- A row that is found needs the same columns as the one that was asked for. -/
theorem asksForWider_of_found {r : Row} {l u : Binary64} {s : StoredRow}
    (h : m.readCachedRow coeffs indices lo hi = .ok (r, l, u)) (hfind : cache.lookup (.ofRow r) = .ok (some s)) :
    m.asksForWider cache coeffs indices lo hi = decide ((m.columns : Int) ≤ s.row.maxIndex) := by
  rw [(RowCache.alike_of_lookup hfind).maxIndex_eq]
  simp only [asksForWider, h, RowCache.contains, hfind]
  exact Bool.true_and _

/-- **A refused row leaves the cache as it was**, unless it is a row from a wider model: then a hit has been
counted. -/
theorem cache_of_refused {e : Error} (h : m.addCachedRow cache coeffs indices lo hi = (cache', .error e)) :
    cache' = if m.asksForWider cache coeffs indices lo hi then cache.countHit else cache := by
  cases hread : m.readCachedRow coeffs indices lo hi with
  | error e =>
    rw [addCachedRow_of_error hread] at h
    cases h
    rw [asksForWider_of_error hread]
    rfl
  | ok given =>
    obtain ⟨r, l, u⟩ := given
    have haddition := cachedAddition cache hread
    rw [h] at haddition
    cases haddition with
    | tooWide s hfind hnarrow =>
      -- the look-up has counted before the columns are compared
      rw [asksForWider_of_found hread hfind, decide_eq_true hnarrow]
      rfl
    | refused e hnew hcheck =>
      rw [asksForWider_of_new hread hnew]
      rfl

/-- **What is counted for one row**: one hit or entry if it is added, and one hit if it is asked for from a wider
model. -/
theorem counts_addCachedRow (m : Model) (cache : RowCache) (coeffs indices lo hi : Arg) :
    let answer := m.addCachedRow cache coeffs indices lo hi
    answer.1.hits + answer.1.misses = cache.hits + cache.misses + answer.2.isOk.toNat +
      (m.asksForWider cache coeffs indices lo hi).toNat := by
  intro answer
  cases hread : m.readCachedRow coeffs indices lo hi with
  | error e =>
    rw [show answer = (cache, .error e) from addCachedRow_of_error hread, asksForWider_of_error hread]
    rfl
  | ok given =>
    obtain ⟨r, l, u⟩ := given
    have haddition := cachedAddition cache hread
    change CachedAddition m cache r l u answer at haddition
    generalize answer = after at haddition
    cases haddition with
    | shared s hfind hwide =>
      rw [asksForWider_of_found hread hfind, decide_eq_false (Int.not_le.mpr hwide)]
      exact Nat.add_right_comm _ _ _
    | tooWide s hfind hnarrow =>
      rw [asksForWider_of_found hread hfind, decide_eq_true hnarrow]
      exact Nat.add_right_comm _ _ _
    | refused e hnew hcheck =>
      rw [asksForWider_of_new hread hnew]
      rfl
    | stored hkey hnew hfits =>
      rw [asksForWider_of_new hread hnew]
      rfl

end Model

/-- An edit that does not go through the cache leaves it alone, and tells nothing of it. -/
theorem Edit.apply_of_uncached {e : Edit} (he : ¬ ∃ coeffs indices lo hi, e = .cachedRow coeffs indices lo hi)
    (m : Model) (cache : RowCache) :
    ∃ result : Except Error Model, e.apply m cache = (cache, result.map (·, none)) := by
  rcases e.apply_plain_or_cachedRow with ⟨step, hplain⟩ | hcached
  · exact ⟨_, hplain m cache⟩
  · exact absurd hcached he

/-! ## Calls -/

namespace Workspace

variable {w : Workspace}

/-- **A call asks for a row from a wider model** than the one that it is about. -/
def asksForWider (w : Workspace) : Call → Bool
  | .edit i (.cachedRow coeffs indices lo hi) =>
    w.models[i]?.any fun m => m.asksForWider w.cache coeffs indices lo hi
  | _ => false

theorem asksForWider_cachedRow {i : Nat} {m : Model} (hm : w.models[i]? = some m) (coeffs indices lo hi : Arg) :
    w.asksForWider (.edit i (.cachedRow coeffs indices lo hi)) = m.asksForWider w.cache coeffs indices lo hi := by
  rw [asksForWider, hm]
  rfl

theorem asksForWider_of_uncached {e : Edit} (he : ¬ ∃ coeffs indices lo hi, e = .cachedRow coeffs indices lo hi)
    (i : Nat) : w.asksForWider (.edit i e) = false := by
  cases e with
  | cachedRow coeffs indices lo hi => exact absurd ⟨coeffs, indices, lo, hi, rfl⟩ he
  | _ => rfl

/-- **A refused row leaves the cache as it was**, unless it is one from a wider model. -/
theorem cache_of_refused {i : Nat} {coeffs indices lo hi : Arg} {e : Error}
    (h : (w.call (.edit i (.cachedRow coeffs indices lo hi))).2 = .error e) :
    (w.call (.edit i (.cachedRow coeffs indices lo hi))).1.cache =
      if w.asksForWider (.edit i (.cachedRow coeffs indices lo hi)) then w.cache.countHit else w.cache := by
  cases hm : w.models[i]? with
  | none =>
    have hwider : w.asksForWider (.edit i (.cachedRow coeffs indices lo hi)) = false := by
      rw [asksForWider, hm]
      rfl
    rw [hwider]
    simp only [call, hm]
    rfl
  | some m =>
    rw [asksForWider_cachedRow hm]
    cases hadd : m.addCachedRow w.cache coeffs indices lo hi with
    | mk cache' result =>
      simp only [call, hm, Edit.perform_eq, Edit.apply_cachedRow, hadd] at h ⊢
      cases result with
      | ok answer => cases h
      | error e' => exact Model.cache_of_refused hadd

/-- How many of the calls in a row ask for a row from a wider model, each when its turn comes. -/
def widerRequests (w : Workspace) : List Call → Nat
  | [] => 0
  | c :: rest => (w.asksForWider c).toNat + (w.call c).1.widerRequests rest

/-- Whether an answer tells of a row that has been added through the cache. -/
def tellsOfRow : Except Error (Option Bool) → Bool
  | .ok (some _) => true
  | _ => false

/-- **How many rows calls in a row add through the cache.** -/
def cachedRows (w : Workspace) (calls : List Call) : Nat := (w.answers calls).countP tellsOfRow

theorem cachedRows_cons (w : Workspace) (c : Call) (rest : List Call) :
    w.cachedRows (c :: rest) = (tellsOfRow (w.call c).2).toNat + (w.call c).1.cachedRows rest := by
  rw [cachedRows, answers, List.countP_cons, Nat.add_comm]
  cases tellsOfRow (w.call c).2 <;> rfl

/-- **What a call counts**: one for a row that it adds through the cache, and one if it asks for a row from a wider
model. -/
theorem counts_call (w : Workspace) (c : Call) :
    (w.call c).1.cache.hits + (w.call c).1.cache.misses =
      w.cache.hits + w.cache.misses + (tellsOfRow (w.call c).2).toNat + (w.asksForWider c).toNat := by
  cases c with
  | create columns rowsHint infinity =>
    simp only [call]
    cases Model.create columns rowsHint infinity <;> rfl
  | freeze i =>
    simp only [call]
    cases w.models[i]? <;> rfl
  | edit i e =>
    cases hm : w.models[i]? with
    | none =>
      have hwider : w.asksForWider (.edit i e) = false := by
        cases e <;> simp [asksForWider, hm]
      simp only [call, hm, hwider]
      rfl
    | some m =>
      -- only one kind of edit looks at the cache
      by_cases he : ∃ coeffs indices lo hi, e = .cachedRow coeffs indices lo hi
      · obtain ⟨coeffs, indices, lo, hi, rfl⟩ := he
        have hcounts := m.counts_addCachedRow w.cache coeffs indices lo hi
        rw [asksForWider_cachedRow hm]
        simp only [call, hm, Edit.perform_eq, Edit.apply_cachedRow]
        generalize m.addCachedRow w.cache coeffs indices lo hi = answer at hcounts
        obtain ⟨cache', result⟩ := answer
        cases result <;> exact hcounts
      · obtain ⟨result, happly⟩ := Edit.apply_of_uncached he m w.cache
        rw [asksForWider_of_uncached he]
        simp only [call, hm, Edit.perform_eq, happly]
        cases result <;> rfl

/-- **What calls in a row count.** -/
theorem counts_run (w : Workspace) (calls : List Call) :
    (w.run calls).cache.hits + (w.run calls).cache.misses =
      w.cache.hits + w.cache.misses + w.cachedRows calls + w.widerRequests calls := by
  induction calls generalizing w with
  | nil => rfl
  | cons c rest ih =>
    rw [run_cons, ih, counts_call, cachedRows_cons, widerRequests]
    omega

/-- **A refused row and what it counts**, after any calls and with any signatures. A refusal changes no model, stores
nothing and counts no entry; the cache is exactly as it was if and only if the row was not one from a wider model,
and for such a row there is one hit more. So hits and entries together count the rows that were added through the
cache, and with them the requests for rows from wider models. -/
theorem refused_cachedRow_counts (signing : Signing) (calls : List Call) :
    let w := (empty signing).run calls
    (∀ i coeffs indices lo hi e, (w.call (.edit i (.cachedRow coeffs indices lo hi))).2 = .error e →
      let c := Call.edit i (.cachedRow coeffs indices lo hi)
      (w.call c).1.models = w.models ∧
        ((w.call c).1.cache = w.cache ↔ w.asksForWider c = false) ∧
        (w.asksForWider c = true → (w.call c).1.cache = w.cache.countHit)) ∧
      w.cache.hits + w.cache.misses = (empty signing).cachedRows calls + (empty signing).widerRequests calls := by
  intro w
  constructor
  · intro i coeffs indices lo hi e h c
    have hcache := cache_of_refused h
    refine ⟨(call_refused_unchanged h).1, ?_, ?_⟩
    · rw [hcache]
      cases w.asksForWider c with
      | false => simp
      | true => simpa using w.cache.countHit_ne
    · intro hwider
      rw [hcache, if_pos hwider]
  · have hcounts := counts_run (empty signing) calls
    rwa [show (empty signing).cache.hits + (empty signing).cache.misses = 0 from rfl, Nat.zero_add] at hcounts

/-- All signatures collide, and a model with three columns has brought in the row `x₂`. A model with one column is
refused the row `x₁`, which the cache does not have, and the cache stays as it is. -/
theorem refused_cachedRow_counts_of_new_row :
    let calls : List Call := [.create (.int 3) (.int 0) (.float Binary64.infinity),
      .create (.int 1) (.int 0) (.float Binary64.infinity),
      .edit 0 (.cachedRow (.list [.int 1]) (.list [.int 2]) (.int 0) (.int 1))]
    let w := (empty (.constant [])).run calls
    let c := Call.edit 1 (.cachedRow (.list [.int 1]) (.list [.int 1]) (.int 0) (.int 1))
    (w.call c).2.isOk = false ∧ (w.call c).1.models = w.models ∧ (w.call c).1.cache = w.cache ∧
      w.cache.hits + w.cache.misses = 1 := by
  intro calls w c
  obtain ⟨hrefused, hcounts⟩ := refused_cachedRow_counts (.constant []) calls
  have hnot : (w.call c).2.isOk = false := by decide +kernel
  have hwider : w.asksForWider c = false := by decide +kernel
  cases h : (w.call c).2 with
  | ok answer => rw [h] at hnot; cases hnot
  | error e =>
    obtain ⟨hmodels, hsame, -⟩ := hrefused 1 _ _ _ _ e h
    -- the signatures are constant, so the calls can be run
    refine ⟨rfl, hmodels, hsame.mpr hwider, hcounts.trans ?_⟩
    decide +kernel

/-- **A hit is counted for a row that is refused.** A model with three columns has brought in the row `x₂`; a
model with one column is refused it, and the cache has a hit more than before. -/
theorem refused_row_counted :
    let calls : List Call := [.create (.int 3) (.int 0) (.float Binary64.infinity),
      .create (.int 1) (.int 0) (.float Binary64.infinity),
      .edit 0 (.cachedRow (.list [.int 1]) (.list [.int 2]) (.int 0) (.int 1))]
    let w := (empty .digest).run calls
    let c := Call.edit 1 (.cachedRow (.list [.int 1]) (.list [.int 2]) (.int 0) (.int 1))
    (w.call c).2.isOk = false ∧ (w.cache.hits, w.cache.misses) = (0, 1) ∧
      ((w.call c).1.cache.hits, (w.call c).1.cache.misses) = (1, 1) ∧ (w.call c).1.cache ≠ w.cache := by
  intro calls w c
  have hcounts : (w.call c).2.isOk = false ∧ (w.cache.hits, w.cache.misses) = (0, 1) ∧
      ((w.call c).1.cache.hits, (w.call c).1.cache.misses) = (1, 1) := by
    decide +kernel
  obtain ⟨hrefused, hbefore, hafter⟩ := hcounts
  refine ⟨hrefused, hbefore, hafter, ?_⟩
  intro hsame
  rw [hsame, hbefore] at hafter
  cases hafter

end Workspace

end Milp
