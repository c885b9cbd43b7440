import Milp.Proofs.Row.Cache
import Milp.Row.Calls

/-!
# The accounts of the row cache

A validator may use the cache in the middle of a call, so what a call finds at first need not be what it finds
after its validator has been heard. Whatever is done, by calls or inside of them, comes down to three steps: a hit
is counted, a row is stored that nothing in its file agrees with, the cache is cleared.

* `Change` and `Path` — one such step, and steps in a row: `path_run` and `path_call`.
* `Path.invariant` — what every step preserves, a path preserves.
* `Tallied` — the counts go with what has happened since the last clearing: `Tallied.change`.
* `Distinct` — no two rows of a file agree: `Distinct.change`.
* `accounts_balance` — both, for calls in a row with any validators.
-/

namespace Milp

/-! ## Patterns that agree -/

theorem sameNumbers_comm (xs ys : List Binary64) : sameNumbers xs ys = sameNumbers ys xs :=
  Bool.eq_iff_iff.mpr ⟨sameNumbers_symm, sameNumbers_symm⟩

namespace Pattern

theorem agrees_iff {p q : Pattern} : p.agrees q = true ↔
    p.indices = q.indices ∧ p.coeffs.shape = q.coeffs.shape ∧
      sameNumbers p.coeffs.entries q.coeffs.entries = true := by
  obtain ⟨⟨ishape, is⟩, ⟨cshape, cs⟩⟩ := p
  obtain ⟨⟨ishape', is'⟩, ⟨cshape', cs'⟩⟩ := q
  rw [agrees, Bool.and_eq_true, Bool.and_eq_true, decide_eq_true_eq, decide_eq_true_eq, Row.agrees_iff,
    Grid.mk.injEq]
  constructor
  · rintro ⟨⟨hi, hc⟩, his, hcs⟩
    exact ⟨⟨hi, his⟩, hc, hcs⟩
  · rintro ⟨⟨hi, his⟩, hc, hcs⟩
    exact ⟨⟨hi, hc⟩, his, hcs⟩

theorem agrees_comm (p q : Pattern) : p.agrees q = q.agrees p := by
  rw [Bool.eq_iff_iff, agrees_iff, agrees_iff, sameNumbers_comm, eq_comm, @eq_comm _ p.coeffs.shape]

/-- **Both arrays of a pattern have a length**, which single values have not. -/
structure HasLengths (p : Pattern) : Prop where
  indices : p.indices.shape ≠ []
  coeffs : p.coeffs.shape ≠ []

theorem hasLengths_ofRow (r : Row) : (ofRow r).HasLengths :=
  ⟨List.cons_ne_nil _ _, List.cons_ne_nil _ _⟩

/-- What is kept of such a pattern is the pattern itself. -/
theorem HasLengths.eq_of_kept {p q : Pattern} (h : p.HasLengths) (hkept : p.kept = .ok q) : q = p := by
  have hindices : p.indices.withAxis = p.indices := by
    rw [Grid.withAxis, if_neg (by simpa using h.indices)]
  have hcoeffs : p.coeffs.withAxis = p.coeffs := by
    rw [Grid.withAxis, if_neg (by simpa using h.coeffs)]
  simp only [kept, hindices, hcoeffs] at hkept
  split at hkept
  · cases hkept
  · exact (Except.ok.inj hkept).symm

end Pattern

namespace RowCache

/-! ## Files -/

/-- A row is filed behind those under the same key; the other files stay as they are. -/
theorem lookup_fileUnder (key k : Signature) (row : StoredRow)
    (files : List (Signature × List StoredRow)) :
    ((fileUnder key row files).lookup k).getD [] =
      (files.lookup k).getD [] ++ if k = key then [row] else [] := by
  induction files with
  | nil =>
    by_cases hk : k = key
    · simp [fileUnder, hk]
    · have hne : (k == key) = false := beq_false_of_ne hk
      simp [fileUnder, List.lookup_cons, hk, hne]
  | cons f rest ih =>
    obtain ⟨k', rows⟩ := f
    unfold fileUnder
    by_cases hkey : k' = key
    · by_cases hk : k = key
      · simp [hkey, hk]
      · have hne : (k == key) = false := beq_false_of_ne hk
        simp [hkey, hk, List.lookup_cons, hne]
    · rw [if_neg hkey, List.lookup_cons, List.lookup_cons]
      by_cases hk : k = k'
      · have hne : k ≠ key := fun h => hkey (hk ▸ h)
        simp [hk, hk ▸ hne]
      · have hne : (k == k') = false := beq_false_of_ne hk
        simp only [hne]
        exact ih

theorem perm_fileUnder (key : Signature) (row : StoredRow) (files : List (Signature × List StoredRow)) :
    ((fileUnder key row files).flatMap (·.2)).Perm (files.flatMap (·.2) ++ [row]) := by
  induction files with
  | nil => exact .refl _
  | cons f rest ih =>
    obtain ⟨k, rows⟩ := f
    unfold fileUnder
    split
    · simp only [List.flatMap_cons, List.append_assoc]
      exact List.perm_append_comm.append_left rows
    · simp only [List.flatMap_cons, List.append_assoc]
      exact ih.append_left rows

variable {cache cache' last : RowCache} {p kept : Pattern}

theorem file_store (cache : RowCache) (key : Signature) (kept : Pattern) (k : Signature) :
    (cache.store key kept).1.file k = cache.file k ++ if k = key then [(cache.store key kept).2] else [] :=
  lookup_fileUnder key k _ cache.files

theorem perm_rows_store (cache : RowCache) (key : Signature) (kept : Pattern) :
    (cache.store key kept).1.rows.Perm (cache.rows ++ [(cache.store key kept).2]) :=
  perm_fileUnder key _ cache.files

/-! ## Steps -/

/-- **What can be done to a cache in one step**, and what happens by it. -/
inductive Change (cache : RowCache) : Happening → RowCache → Prop where
  | hit : Change cache .hit cache.countHit
  /-- only what is new is stored, under the key that it is given -/
  | stored (p : Pattern) {key : Signature} {kept : Pattern} (hkey : cache.signing.sign p = .ok key)
      (hnew : cache.findUnder key p = none) (hkept : p.kept = .ok kept) :
      Change cache (.stored p (cache.store key kept).2) (cache.store key kept).1
  | cleared : Change cache .cleared cache.clear

/-- How patterns are signed never changes. -/
theorem Change.signing_eq {h : Happening} (hchange : Change cache h cache') : cache'.signing = cache.signing := by
  cases hchange <;> rfl

/-- **Steps in a row.** -/
inductive Path : RowCache → List Happening → RowCache → Prop where
  | done (cache : RowCache) : Path cache [] cache
  | step {cache cache' last : RowCache} {h : Happening} {past : List Happening}
      (first : Change cache h cache') (rest : Path cache' past last) : Path cache (h :: past) last

namespace Path

theorem single {h : Happening} (first : Change cache h cache') : Path cache [h] cache' :=
  .step first (.done cache')

theorem trans {past past' : List Happening} (h : Path cache past cache') (h' : Path cache' past' last) :
    Path cache (past ++ past') last := by
  induction h with
  | done => exact h'
  | step first _ ih => exact .step first (ih h')

theorem signing_eq {past : List Happening} (h : Path cache past cache') : cache'.signing = cache.signing := by
  induction h with
  | done => rfl
  | step first _ ih => exact ih.trans first.signing_eq

/-- **What every step preserves, a path preserves**: about the cache, and what has happened since it was last
cleared. -/
theorem invariant {motive : RowCache → List Happening → Prop} {past : List Happening}
    (hpath : Path cache past cache') (recent : List Happening)
    (hstep : ∀ c c' recent h, h ∈ past → motive c recent → Change c h c' → motive c' (Happening.after recent h))
    (hstart : motive cache recent) : motive cache' (past.foldl Happening.after recent) := by
  induction hpath generalizing recent with
  | done => exact hstart
  | step first _ ih =>
    refine ih _ ?_ (hstep _ _ _ _ List.mem_cons_self hstart first)
    intro c c' recent h hmem
    exact hstep c c' recent h (List.mem_cons_of_mem _ hmem)

end Path

/-! ## Asking for a row -/

/-- **What asking for a row comes to** with any validator: the cache afterwards, and the answer. -/
inductive Asked (cache : RowCache) (validate : Validator) (p : Pattern) :
    RowCache × Except Error (StoredRow × Bool) → Prop where
  /-- nothing is looked for, and the validator is not heard -/
  | unsigned {e : Error} (hsign : cache.lookup p = .error e) : Asked cache validate p (cache, .error e)
  /-- the validator is not heard about a row that is found -/
  | found {s : StoredRow} (hfind : cache.lookup p = .ok (some s)) :
      Asked cache validate p (cache.countHit, .ok (s, true))
  | refused (hnew : cache.lookup p = .ok none) {cache' : RowCache} {e : Error}
      (hvalidate : validate p cache = (cache', .error e)) : Asked cache validate p (cache', .error e)
  | notKept (hnew : cache.lookup p = .ok none) {cache' : RowCache} {e : Error}
      (hvalidate : validate p cache = (cache', .ok ())) (hkept : p.kept = .error e) :
      Asked cache validate p (cache', .error e)
  /-- the validator has stored the row itself -/
  | foundLate (hnew : cache.lookup p = .ok none) {cache' : RowCache} {s : StoredRow}
      (hvalidate : validate p cache = (cache', .ok ())) :
      Asked cache validate p (cache'.countHit, .ok (s, true))
  | stored (hnew : cache.lookup p = .ok none) {cache' : RowCache} {key : Signature} {kept : Pattern}
      (hvalidate : validate p cache = (cache', .ok ())) (hkept : p.kept = .ok kept)
      (hkey : cache.signing.sign p = .ok key) (hstill : cache'.findUnder key p = none) :
      Asked cache validate p ((cache'.store key kept).1, .ok ((cache'.store key kept).2, false))

theorem asked_getOrInsert (cache : RowCache) (validate : Validator) (p : Pattern) :
    Asked cache validate p (cache.getOrInsert validate p) := by
  unfold getOrInsert
  split
  · rename_i e hsign
    exact .unsigned (by rw [lookup, hsign]; rfl)
  rename_i key hkey
  have hlookup := lookup_of_sign hkey
  split
  · rename_i s hfind
    exact .found (hlookup.trans (congrArg _ hfind))
  · rename_i hnew
    rw [hnew] at hlookup
    split
    · rename_i cache' e hvalidate
      exact .refused hlookup hvalidate
    · rename_i cache' hvalidate
      split
      · rename_i e hkept
        exact .notKept hlookup hvalidate hkept
      · rename_i kept hkept
        simp only [findOrStore]
        split
        · exact .foundLate hlookup hvalidate
        · rename_i hstill
          exact .stored hlookup hvalidate hkept hkey hstill

theorem isNew_iff : cache.isNew p = true ↔ cache.lookup p = .ok none := by
  unfold isNew
  split
  · rename_i hnew
    exact iff_of_true rfl hnew
  · rename_i hnew
    exact iff_of_false Bool.false_ne_true hnew

/-- **Asking for a row is a path**, if what its validator does is one. -/
theorem path_getOrInsert (validate : Validator) {within : List Happening}
    (hwithin : Path cache within (validate p cache).1) :
    Path cache ((if cache.isNew p then within else []) ++
      Happening.ofFound p (cache.getOrInsert validate p).2) (cache.getOrInsert validate p).1 := by
  have hasked := asked_getOrInsert cache validate p
  generalize cache.getOrInsert validate p = outcome at hasked ⊢
  cases hasked with
  | unsigned hsign =>
    have hnot : ¬cache.isNew p = true := fun h => nomatch hsign.symm.trans (isNew_iff.mp h)
    rw [if_neg hnot]
    exact .done cache
  | found hfind =>
    have hnot : ¬cache.isNew p = true := fun h => nomatch hfind.symm.trans (isNew_iff.mp h)
    rw [if_neg hnot]
    exact .single .hit
  | refused hnew hvalidate | notKept hnew hvalidate hkept =>
    rw [hvalidate] at hwithin
    rw [if_pos (isNew_iff.mpr hnew)]
    exact hwithin.trans (.done _)
  | foundLate hnew hvalidate =>
    rw [hvalidate] at hwithin
    rw [if_pos (isNew_iff.mpr hnew)]
    exact hwithin.trans (.single .hit)
  | stored hnew hvalidate hkept hkey hstill =>
    rw [hvalidate] at hwithin
    rw [if_pos (isNew_iff.mpr hnew)]
    have hkey' := (congrArg (fun signing => signing.sign p) hwithin.signing_eq).trans hkey
    exact hwithin.trans (.single (.stored p hkey' hstill hkept))

/-- **A validation is a path**, however deeply it asks for rows. -/
theorem path_run (v : Validation) (cache : RowCache) : Path cache (v.log cache) (v.run cache).1 := by
  induction v generalizing cache with
  | verdict result => exact .done cache
  | look next ih => exact ih cache cache
  | get p within next ihwithin ihnext =>
    have hget := path_getOrInsert within.validator (p := p) (ihwithin cache)
    exact hget.trans (ihnext _ _)
  | clear next ih => exact .step .cleared (ih cache.clear)

theorem path_call (cache : RowCache) (c : Call) : Path cache (cache.log c) (cache.call c).1 := by
  cases c with
  | get p v => exact path_getOrInsert v.validator (path_run v cache)
  | lookup p => exact .done cache
  | contains p => exact .done cache
  | clear => exact .single .cleared

/-- **Calls in a row are a path.** -/
theorem path_history (cache : RowCache) (calls : List Call) :
    Path cache (cache.history calls) (cache.run calls) := by
  induction calls generalizing cache with
  | nil => exact .done cache
  | cons c rest ih => exact (cache.path_call c).trans (ih _)

/-! ## Counts -/

/-- **The counts go with what has happened** since the last clearing: the rows are those that were stored, a miss
was counted for each of them, and a hit or a miss for every row that was handed out. -/
structure Tallied (cache : RowCache) (recent : List Happening) : Prop where
  rows : cache.rows.Perm (Happening.rows recent)
  misses : cache.misses = cache.size
  total : cache.hits + cache.misses = recent.length

theorem tallied_empty (signing : Signing) : (empty signing).Tallied [] := ⟨.refl _, rfl, rfl⟩

variable {recent past : List Happening} {h : Happening}

/-- **One step keeps the counts right.** -/
theorem Tallied.change (hcache : cache.Tallied recent) (hchange : Change cache h cache') :
    cache'.Tallied (Happening.after recent h) := by
  cases hchange with
  | hit =>
    refine ⟨?_, hcache.misses, ?_⟩
    · rw [Happening.rows_after_hit]
      exact hcache.rows
    · have htotal := hcache.total
      rw [Happening.after_hit, List.length_append, List.length_singleton, ← htotal]
      exact Nat.add_right_comm _ _ _
  | @stored p key kept hkey hnew hkept =>
    have hrows := cache.perm_rows_store key kept
    refine ⟨?_, ?_, ?_⟩
    · rw [Happening.rows_after_stored]
      exact hrows.trans (hcache.rows.append_right _)
    · have hmisses := hcache.misses
      have hsize := hrows.length_eq
      rw [List.length_append, List.length_singleton] at hsize
      show cache.misses + 1 = _
      rw [size, hsize, hmisses, size]
    · have htotal := hcache.total
      rw [Happening.after_stored, List.length_append, List.length_singleton, ← htotal]
      rfl
  | cleared => exact ⟨.refl _, rfl, rfl⟩

/-- The counts are right after any calls. -/
theorem tallied_run (signing : Signing) (calls : List Call) :
    ((empty signing).run calls).Tallied (Happening.sinceClear ((empty signing).history calls)) :=
  (path_history _ calls).invariant [] (fun _ _ _ _ _ => Tallied.change) (tallied_empty signing)

/-! ## Files only grow -/

/-- **Between two clearings files only grow**, at their ends. -/
theorem Path.file_append (hpath : Path cache past cache') (hcleared : .cleared ∉ past) (key : Signature) :
    cache.file key <+: cache'.file key := by
  refine hpath.invariant (motive := fun c _ => cache.file key <+: c.file key) [] ?_ (List.prefix_refl _)
  intro c c' _ h hmem hgrown hchange
  refine hgrown.trans ?_
  cases hchange with
  | hit => exact List.prefix_refl _
  | stored p hkey hnew hkept =>
    rw [file_store]
    exact List.prefix_append _ _
  | cleared => exact absurd hmem hcleared

/-! ## Rows that differ -/

/-- **No two rows of a file agree.** -/
def Distinct (cache : RowCache) : Prop :=
  ∀ key, (cache.file key).Pairwise fun s t => s.pattern.agrees t.pattern = false

theorem distinct_empty (signing : Signing) : (empty signing).Distinct := fun _ => .nil

/-- **One step keeps rows distinct.** The row that is stored has been looked for at that moment, and not
before its validator was heard. -/
theorem Distinct.change (hcache : cache.Distinct) (hchange : Change cache h cache')
    (hlengths : ∀ p s, h = .stored p s → p.HasLengths) : cache'.Distinct := by
  cases hchange with
  | hit => exact hcache
  | cleared => exact fun _ => .nil
  | stored p hkey hnew hkept =>
    obtain rfl := (hlengths p _ rfl).eq_of_kept hkept
    intro key
    rw [file_store]
    split
    · rename_i heq
      subst heq
      refine List.pairwise_append.mpr ⟨hcache _, List.pairwise_singleton _ _, ?_⟩
      intro s hs t ht
      rw [List.mem_singleton.mp ht]
      exact Bool.eq_false_iff.mpr (List.find?_eq_none.mp hnew s hs)
    · rw [List.append_nil]
      exact hcache key

/-! ## The balance -/

/-- **The accounts of the row cache**, after any calls with any validators, which may ask for rows or clear the
cache themselves. There are as many misses as rows, and as many hits and misses as rows have been handed out
since the last clearing. Between two clearings rows are only added. A call whose validator refuses its pattern
leaves the cache as the validator did. And no two rows of a file agree, if all patterns that were stored have
lengths. -/
theorem accounts_balance (signing : Signing) (calls : List Call) :
    let cache := (empty signing).run calls
    let past := (empty signing).history calls
    cache.misses = cache.size ∧
      cache.hits + cache.misses = (Happening.sinceClear past).length ∧
      cache.rows.Perm (Happening.rows (Happening.sinceClear past)) ∧
      (∀ later, .cleared ∉ cache.history later → ∀ key, cache.file key <+: (cache.run later).file key) ∧
      (∀ p v cache' e, cache.lookup p = .ok none → v.run cache = (cache', .error e) →
        cache.call (.get p v) = (cache', .row (.error e)) ∧ cache.log (.get p v) = v.log cache) ∧
      ((∀ p s, .stored p s ∈ past → p.HasLengths) → ∀ key, (cache.file key).Pairwise fun s t =>
        s.pattern.agrees t.pattern = false ∧ t.pattern.agrees s.pattern = false) := by
  intro cache past
  have htally := tallied_run signing calls
  refine ⟨htally.misses, htally.total, htally.rows, ?_, ?_, ?_⟩
  · intro later hcleared key
    exact (path_history cache later).file_append hcleared key
  · intro p v cache' e hnew hrun
    obtain ⟨key, hkey, hfind⟩ := lookup_eq_ok_iff.mp hnew
    have hget : cache.getOrInsert v.validator p = (cache', .error e) := by
      simp only [getOrInsert, hkey, hfind, Validation.validator, hrun]
    refine ⟨?_, ?_⟩
    · rw [call, hget]
    · rw [log, hget, if_pos (isNew_iff.mpr hnew)]
      exact List.append_nil _
  · intro hlengths key
    have hdistinct : cache.Distinct := by
      refine (path_history _ calls).invariant (motive := fun c _ => c.Distinct) [] ?_
        (distinct_empty signing)
      intro c c' _ h hmem hc hchange
      exact hc.change hchange fun p s heq => hlengths p s (heq ▸ hmem)
    refine (hdistinct key).imp ?_
    intro s t h
    exact ⟨h, (Pattern.agrees_comm _ _).trans h⟩

/-- **A single coefficient is stored twice**, if the validator asks for it too. It is kept as a vector, with which
it does not agree when it is looked for again. So two rows of a file may agree though no coefficient is NaN. -/
theorem single_coefficient_stored_twice :
    ¬ ∀ (signing : Signing) (calls : List Call),
      (∀ p s, .stored p s ∈ (empty signing).history calls → ∀ x ∈ p.coeffs.entries, x.isNaN = false) →
        ∀ key, (((empty signing).run calls).file key).Pairwise fun s t =>
          s.pattern.agrees t.pattern = false ∧ t.pattern.agrees s.pattern = false := by
  intro hall
  let p : Pattern := ⟨.vector [3], ⟨[], [Binary64.one]⟩⟩
  let accept : Validation := .verdict (.ok ())
  let row (serial : Nat) : StoredRow := ⟨serial, .ofRow (.ofArrays [3] [Binary64.one])⟩
  let calls : List Call := [.get p (.get p accept fun _ => accept)]
  have hhistory : (empty (.constant [])).history calls = [.stored p (row 0), .stored p (row 1)] := by
    decide +kernel
  have hfile : ((empty (.constant [])).run calls).file [] = [row 0, row 1] := by decide +kernel
  have hpairs := hall (.constant []) calls ?_ []
  · rw [hfile] at hpairs
    have hrows := List.rel_of_pairwise_cons hpairs (List.mem_singleton_self _)
    revert hrows
    decide +kernel
  · rw [hhistory]
    intro q s hmem x hx
    have hq : q = p := by
      simp only [List.mem_cons, Happening.stored.injEq, List.not_mem_nil, or_false] at hmem
      exact hmem.elim And.left And.left
    rw [hq] at hx
    obtain rfl := List.mem_singleton.mp hx
    decide +kernel

end RowCache

end Milp
