import Mathlib.Data.List.Nodup
import Milp.Proofs.Row.Accounting
import Milp.Proofs.Steps

/-!
# Signatures do not show

Where rows are filed depends on how patterns are signed. On patterns that agree only with themselves, nothing
that can be seen of a cache does: a cache is the rows that were stored since it was last cleared, no two of them
for one pattern, and whatever is asked of it is looked for among these.

* `Pattern.IsPlain` — patterns that agree only with themselves: `Pattern.agrees_iff_eq`.
* `Keeps` — the rows of a cache are those that were stored: `Keeps.change`, `Keeps.path`.
* `Keeps.lookup_eq` — a pattern is looked for among them.
* `report_eq_of_keeps` — two caches that keep the same rows report the same.
* `keeps_distinct_patterns` — all of it, for calls in a row.
-/

namespace Milp

/-! ## Plain patterns -/

namespace Binary64

/-- **A plain number** is equal only to itself: it is neither NaN nor the negative zero. -/
structure IsPlain (x : Binary64) : Prop where
  notNaN : x.isNaN = false
  notNegZero : x ≠ zero.neg

/-- Plain numbers at one place are one number. -/
theorem IsPlain.eq_of_same {x y : Binary64} (hx : x.IsPlain) (hy : y.IsPlain) (h : x.same y = true) :
    x = y := by
  rcases eq_or_zero_of_same h with heq | ⟨hxzero, hyzero⟩
  · exact heq
  · have hx := (same_zero_iff.mp hxzero).resolve_right hx.notNegZero
    have hy := (same_zero_iff.mp hyzero).resolve_right hy.notNegZero
    rw [hx, hy]

end Binary64

theorem sameNumbers_iff_eq {xs ys : List Binary64} (hxs : ∀ x ∈ xs, x.IsPlain) (hys : ∀ y ∈ ys, y.IsPlain) :
    sameNumbers xs ys = true ↔ xs = ys := by
  induction xs generalizing ys with
  | nil => cases ys <;> simp [sameNumbers]
  | cons x xs ih =>
    cases ys with
    | nil => simp [sameNumbers]
    | cons y ys =>
      obtain ⟨hx, hxs⟩ := List.forall_mem_cons.mp hxs
      obtain ⟨hy, hys⟩ := List.forall_mem_cons.mp hys
      rw [sameNumbers, Bool.and_eq_true, ih hxs hys, List.cons.injEq]
      refine and_congr_left fun _ => ⟨hx.eq_of_same hy, ?_⟩
      rintro rfl
      exact Binary64.same_self_of_not_isNaN hx.notNaN

/-- **A plain pattern** agrees only with itself, and is kept as it is: both its arrays have a length, and its
coefficients are plain. -/
structure Pattern.IsPlain (p : Pattern) : Prop extends p.HasLengths where
  plain : ∀ x ∈ p.coeffs.entries, x.IsPlain

theorem Pattern.isPlain_ofRow {r : Row} (h : ∀ x ∈ r.coeffs, x.IsPlain) : (ofRow r).IsPlain :=
  ⟨hasLengths_ofRow r, h⟩

theorem Pattern.IsPlain.agrees_iff_eq {p q : Pattern} (hp : p.IsPlain) (hq : q.IsPlain) :
    p.agrees q = true ↔ p = q := by
  rw [agrees_iff, sameNumbers_iff_eq hp.plain hq.plain]
  constructor
  · rintro ⟨hindices, hshape, hentries⟩
    obtain ⟨is, ⟨shape, xs⟩⟩ := p
    cases hindices
    cases hshape
    cases hentries
    rfl
  · rintro rfl
    exact ⟨rfl, rfl, rfl⟩

namespace RowCache

/-- Calls about plain patterns, with validators that only accept or refuse. -/
def Call.IsPlain : Call → Prop
  | .get p v => p.IsPlain ∧ ∃ result, v = .verdict result
  | .lookup p | .contains p => p.IsPlain
  | .clear => True

/-! ## What a cache keeps -/

/-- **A cache keeps the rows that were stored**, each in the file of its pattern, all of them plain and no two
for one pattern. -/
structure Keeps (cache : RowCache) (recent : List Happening) : Prop extends cache.Tallied recent where
  filed : ∀ s ∈ cache.rows, ∀ key, cache.signing.sign s.pattern = .ok key → s ∈ cache.file key
  plain : ∀ s ∈ cache.rows, s.pattern.IsPlain
  distinct : ((Happening.rows recent).map (·.pattern)).Nodup

theorem keeps_empty (signing : Signing) : (empty signing).Keeps [] where
  toTallied := tallied_empty signing
  filed := nofun
  plain := nofun
  distinct := .nil

variable {cache cache' : RowCache} {recent : List Happening} {h : Happening} {p : Pattern} {s : StoredRow}

/-- Only one row is kept for a pattern. -/
theorem Keeps.eq_of_pattern_eq (hcache : cache.Keeps recent) {t : StoredRow} (hs : s ∈ Happening.rows recent)
    (ht : t ∈ Happening.rows recent) (h : s.pattern = t.pattern) : s = t :=
  List.inj_on_of_nodup_map hcache.distinct hs ht h

variable {key : Signature}

/-- **A pattern is looked for among the rows that are kept**, whatever they are filed under. -/
theorem Keeps.findUnder_iff (hcache : cache.Keeps recent) (hp : p.IsPlain)
    (hkey : cache.signing.sign p = .ok key) :
    cache.findUnder key p = some s ↔ s ∈ Happening.rows recent ∧ s.pattern = p := by
  have hfound : ∀ t, cache.findUnder key p = some t → t ∈ Happening.rows recent ∧ t.pattern = p := by
    intro t ht
    have hmem := mem_rows_of_lookup ((lookup_of_sign hkey).trans (congrArg _ ht))
    unfold findUnder at ht
    have hagrees := List.find?_some ht
    exact ⟨hcache.rows.mem_iff.mp hmem, ((hcache.plain t hmem).agrees_iff_eq hp).mp hagrees⟩
  refine ⟨hfound s, ?_⟩
  rintro ⟨hs, rfl⟩
  have hmem := hcache.rows.mem_iff.mpr hs
  -- something is found in the file of the pattern, and only this row can be
  have hsome : (cache.findUnder key s.pattern).isSome = true := by
    refine List.find?_isSome.mpr ⟨s, hcache.filed s hmem key hkey, ?_⟩
    exact (hp.agrees_iff_eq hp).mpr rfl
  obtain ⟨t, ht⟩ := Option.isSome_iff_exists.mp hsome
  obtain ⟨htmem, hpattern⟩ := hfound t ht
  rw [ht, hcache.eq_of_pattern_eq htmem hs hpattern]

theorem Keeps.findUnder_eq_none_iff (hcache : cache.Keeps recent) (hp : p.IsPlain)
    (hkey : cache.signing.sign p = .ok key) :
    cache.findUnder key p = none ↔ p ∉ (Happening.rows recent).map (·.pattern) := by
  rw [Option.eq_none_iff_forall_ne_some, List.mem_map, not_exists]
  exact forall_congr' fun s => not_congr (hcache.findUnder_iff hp hkey)

/-- The row that is found is the first that was stored for the pattern. -/
theorem Keeps.findUnder_eq (hcache : cache.Keeps recent) (hp : p.IsPlain)
    (hkey : cache.signing.sign p = .ok key) :
    cache.findUnder key p = (Happening.rows recent).find? fun s => decide (s.pattern = p) := by
  cases hfind : cache.findUnder key p with
  | none =>
    rw [eq_comm, List.find?_eq_none]
    intro s hs hpattern
    refine (hcache.findUnder_eq_none_iff hp hkey).mp hfind (List.mem_map.mpr ⟨s, hs, ?_⟩)
    simpa using hpattern
  | some s =>
    obtain ⟨hs, hpattern⟩ := (hcache.findUnder_iff hp hkey).mp hfind
    have hsome : ((Happening.rows recent).find? fun s => decide (s.pattern = p)).isSome = true :=
      List.find?_isSome.mpr ⟨s, hs, decide_eq_true hpattern⟩
    obtain ⟨t, ht⟩ := Option.isSome_iff_exists.mp hsome
    have htpattern : t.pattern = p := by simpa using List.find?_some ht
    rw [ht, hcache.eq_of_pattern_eq hs (List.mem_of_find?_eq_some ht) (hpattern.trans htpattern.symm)]

/-- Plain patterns have lengths, and are never refused for want of a key. -/
theorem Keeps.lookup_eq (hcache : cache.Keeps recent) (hp : p.IsPlain) :
    cache.lookup p = .ok ((Happening.rows recent).find? fun s => decide (s.pattern = p)) := by
  obtain ⟨key, hkey⟩ := cache.signing.signs p hp.indices
  rw [lookup_of_sign hkey, hcache.findUnder_eq hp hkey]

/-- **One step keeps what is kept.** -/
theorem Keeps.change (hcache : cache.Keeps recent) (hchange : Change cache h cache')
    (hplain : ∀ p s, h = .stored p s → p.IsPlain) : cache'.Keeps (Happening.after recent h) := by
  have htally := hcache.toTallied.change hchange
  cases hchange with
  | hit =>
    refine ⟨htally, hcache.filed, hcache.plain, ?_⟩
    rw [Happening.rows_after_hit]
    exact hcache.distinct
  | cleared => exact ⟨htally, nofun, nofun, .nil⟩
  | @stored q key p hkey hnew hkept =>
    have hp := hplain q _ rfl
    obtain rfl := hp.toHasLengths.eq_of_kept hkept
    have hrows : ∀ s ∈ (cache.store key p).1.rows, s ∈ cache.rows ∨ s = (cache.store key p).2 := by
      intro s hs
      simpa using (cache.perm_rows_store key p).mem_iff.mp hs
    refine ⟨htally, ?_, ?_, ?_⟩
    · intro s hs k hk
      rw [file_store]
      rcases hrows s hs with hold | rfl
      · exact List.mem_append_left _ (hcache.filed s hold k hk)
      · have hsame : k = key := Except.ok.inj (hk.symm.trans hkey)
        rw [if_pos hsame]
        exact List.mem_append_right _ (List.mem_singleton_self _)
    · intro s hs
      rcases hrows s hs with hold | rfl
      · exact hcache.plain s hold
      · exact hp
    · rw [Happening.rows_after_stored, List.map_append]
      refine List.nodup_append.mpr ⟨hcache.distinct, List.nodup_singleton _, ?_⟩
      rintro q hq _ hlast rfl
      have hlast : q = p := List.mem_singleton.mp hlast
      exact (hcache.findUnder_eq_none_iff hp hkey).mp hnew (hlast ▸ hq)

/-! ## Calls about plain patterns -/

/-- What a verdict comes to about a pattern that is not found. -/
theorem getOrInsert_verdict (result : Except Error Unit) (hkey : cache.signing.sign p = .ok key)
    (hnew : cache.findUnder key p = none) :
    cache.getOrInsert (Validation.verdict result).validator p =
      match result >>= fun _ => p.kept with
      | .error e => (cache, .error e)
      | .ok kept => ((cache.store key kept).1, .ok ((cache.store key kept).2, false)) := by
  simp only [getOrInsert, hkey, hnew, Validation.validator, Validation.run]
  cases result with
  | error e => rfl
  | ok _ =>
    cases p.kept with
    | error e => rfl
    | ok kept =>
      simp only [findOrStore, hnew]
      rfl

theorem getOrInsert_verdict_eq_hit_iff (result : Except Error Unit) (hkey : cache.signing.sign p = .ok key) :
    (cache.getOrInsert (Validation.verdict result).validator p).2 = .ok (s, true) ↔
      cache.findUnder key p = some s := by
  cases hfind : cache.findUnder key p with
  | some t => simp [getOrInsert, hkey, hfind]
  | none =>
    rw [getOrInsert_verdict result hkey hfind]
    cases (result >>= fun _ => p.kept) <;> simp

/-- A row that is handed out has the pattern that was asked for. -/
theorem Keeps.pattern_eq (hcache : cache.Keeps recent) (hp : p.IsPlain) {result : Except Error Unit} {hit : Bool}
    (hget : (cache.getOrInsert (Validation.verdict result).validator p).2 = .ok (s, hit)) : s.pattern = p := by
  obtain ⟨key, hkey⟩ := cache.signing.signs p hp.indices
  cases hit with
  | true =>
    have hfind := (getOrInsert_verdict_eq_hit_iff result hkey).mp hget
    exact ((hcache.findUnder_iff hp hkey).mp hfind).2
  | false =>
    cases hfind : cache.findUnder key p with
    | some t => simp [getOrInsert, hkey, hfind] at hget
    | none =>
      rw [getOrInsert_verdict result hkey hfind] at hget
      cases hkept : result >>= fun _ => p.kept with
      | error e => simp [hkept] at hget
      | ok kept =>
        have hrow : (cache.store key kept).2 = s := by simpa [hkept] using hget
        obtain ⟨-, -, hkept⟩ := bind_eq_ok_iff.mp hkept
        rw [← hrow]
        exact hp.toHasLengths.eq_of_kept hkept

theorem log_get_verdict (result : Except Error Unit) (p : Pattern) :
    cache.log (.get p (.verdict result)) =
      Happening.ofFound p (cache.getOrInsert (Validation.verdict result).validator p).2 := by
  rw [log, Validation.log, ite_self, List.nil_append]

/-- What such a call stores is stored for the pattern it is about. -/
theorem plain_of_stored_mem_log {c : Call} (hc : c.IsPlain) {q : Pattern}
    (hmem : .stored q s ∈ cache.log c) : q.IsPlain := by
  cases c with
  | get p v =>
    obtain ⟨hp, result, rfl⟩ := hc
    rw [log_get_verdict] at hmem
    unfold Happening.ofFound at hmem
    split at hmem
    · simp at hmem
    · simp only [List.mem_singleton, Happening.stored.injEq] at hmem
      exact hmem.1 ▸ hp
    · simp at hmem
  | lookup p | contains p => simp [log] at hmem
  | clear => simp [log] at hmem

/-- **Calls about plain patterns keep what is kept.** -/
theorem Keeps.call (hcache : cache.Keeps recent) {c : Call} (hc : c.IsPlain) :
    (cache.call c).1.Keeps ((cache.log c).foldl Happening.after recent) := by
  refine (cache.path_call c).invariant recent ?_ hcache
  intro c₁ c₂ recent h hmem hkeeps hchange
  refine hkeeps.change hchange ?_
  rintro p s rfl
  exact plain_of_stored_mem_log hc hmem

theorem Keeps.run (hcache : cache.Keeps recent) {calls : List Call} (hcalls : ∀ c ∈ calls, c.IsPlain) :
    (cache.run calls).Keeps ((cache.history calls).foldl Happening.after recent) := by
  induction calls generalizing cache recent with
  | nil => exact hcache
  | cons c rest ih =>
    obtain ⟨hc, hrest⟩ := List.forall_mem_cons.mp hcalls
    rw [run_cons, history, List.foldl_append]
    exact ih (hcache.call hc) hrest

/-! ## Two caches -/

theorem Tallied.counts_eq (hcache : cache.Tallied recent) :
    cache.counts = (recent.length - (Happening.rows recent).length, (Happening.rows recent).length,
      (Happening.rows recent).length) := by
  have hsize : cache.size = (Happening.rows recent).length := hcache.rows.length_eq
  have hmisses := hcache.misses
  have htotal := hcache.total
  have hhits : cache.hits = recent.length - (Happening.rows recent).length := by omega
  rw [counts, hhits, hmisses, hsize]

variable {calls : List Call}

/-- **Caches that keep the same rows give the same answer**, and the same happens to them. -/
theorem call_eq_of_keeps (hcache : cache.Keeps recent) (hcache' : cache'.Keeps recent)
    (hserial : cache.nextSerial = cache'.nextSerial) {c : Call} (hc : c.IsPlain) :
    (cache.call c).2 = (cache'.call c).2 ∧ cache.log c = cache'.log c ∧
      (cache.call c).1.nextSerial = (cache'.call c).1.nextSerial := by
  have hlookup : ∀ p : Pattern, p.IsPlain → cache.lookup p = cache'.lookup p := by
    intro p hp
    rw [hcache.lookup_eq hp, hcache'.lookup_eq hp]
  cases c with
  | get p v =>
    obtain ⟨hp, result, rfl⟩ := hc
    have hget : (cache.getOrInsert (Validation.verdict result).validator p).2 =
          (cache'.getOrInsert (Validation.verdict result).validator p).2 ∧
        (cache.getOrInsert (Validation.verdict result).validator p).1.nextSerial =
          (cache'.getOrInsert (Validation.verdict result).validator p).1.nextSerial := by
      -- the keys need not be the same, but the rows under them are
      obtain ⟨key, hkey⟩ := cache.signing.signs p hp.indices
      obtain ⟨key', hkey'⟩ := cache'.signing.signs p hp.indices
      have hsame : cache'.findUnder key' p = cache.findUnder key p :=
        (hcache'.findUnder_eq hp hkey').trans (hcache.findUnder_eq hp hkey).symm
      cases hfound : cache.findUnder key p with
      | some s =>
        rw [hfound] at hsame
        simp only [getOrInsert, hkey, hkey', hfound, hsame]
        exact ⟨trivial, hserial⟩
      | none =>
        rw [hfound] at hsame
        rw [getOrInsert_verdict result hkey hfound, getOrInsert_verdict result hkey' hsame]
        cases (result >>= fun _ => p.kept) with
        | error e => exact ⟨rfl, hserial⟩
        | ok kept =>
          simp only [store, hserial, and_self]
    refine ⟨congrArg Answer.row hget.1, ?_, hget.2⟩
    rw [log_get_verdict, log_get_verdict, hget.1]
  | lookup p => exact ⟨congrArg Answer.lookedUp (hlookup p hc), rfl, hserial⟩
  | contains p =>
    refine ⟨?_, rfl, hserial⟩
    simp only [RowCache.call, RowCache.contains, hlookup p hc]
  | clear => exact ⟨rfl, rfl, hserial⟩

/-- **Caches that keep the same rows report the same.** -/
theorem report_eq_of_keeps (hcache : cache.Keeps recent) (hcache' : cache'.Keeps recent)
    (hserial : cache.nextSerial = cache'.nextSerial) (hcalls : ∀ c ∈ calls, c.IsPlain) :
    cache.report calls = cache'.report calls := by
  induction calls generalizing cache cache' recent with
  | nil => rfl
  | cons c rest ih =>
    obtain ⟨hc, hrest⟩ := List.forall_mem_cons.mp hcalls
    obtain ⟨hanswer, hlog, hnext⟩ := call_eq_of_keeps hcache hcache' hserial hc
    have hkeeps := hcache.call hc
    have hkeeps' : (cache'.call c).1.Keeps ((cache.log c).foldl Happening.after recent) :=
      hlog ▸ hcache'.call hc
    rw [report, report, hanswer, hkeeps.toTallied.counts_eq, hkeeps'.toTallied.counts_eq,
      ih hkeeps hkeeps' hnext hrest]

/-! ## Distinct patterns -/

/-- **A cache is a set of distinct patterns, however they are signed.** Calls about plain patterns, with validators
that only accept or refuse, report the same under any two signings. No two of the rows that were stored since the
last clearing have one pattern; a call hits if and only if its pattern is among them, and it is then handed the
row that was stored first for it; and a row that is handed out has the pattern that was asked for. -/
theorem keeps_distinct_patterns (signing signing' : Signing) (calls : List Call)
    (hcalls : ∀ c ∈ calls, c.IsPlain) :
    let cache := (empty signing).run calls
    let stored := Happening.rows (Happening.sinceClear ((empty signing).history calls))
    (empty signing).report calls = (empty signing').report calls ∧
      cache.rows.Perm stored ∧
      (stored.map (·.pattern)).Nodup ∧
      ∀ p v, (Call.get p v).IsPlain →
        (∀ s, (cache.call (.get p v)).2 = .row (.ok (s, true)) ↔
          stored.find? (fun t => decide (t.pattern = p)) = some s) ∧
        ∀ s hit, (cache.call (.get p v)).2 = .row (.ok (s, hit)) → s.pattern = p := by
  intro cache stored
  have hkeeps : cache.Keeps (Happening.sinceClear ((empty signing).history calls)) :=
    (keeps_empty signing).run hcalls
  refine ⟨report_eq_of_keeps (keeps_empty signing) (keeps_empty signing') rfl hcalls, hkeeps.rows,
    hkeeps.distinct, ?_⟩
  rintro p v ⟨hp, result, rfl⟩
  obtain ⟨key, hkey⟩ := cache.signing.signs p hp.indices
  refine ⟨?_, ?_⟩
  · intro s
    rw [← hkeeps.findUnder_eq hp hkey, ← getOrInsert_verdict_eq_hit_iff result hkey]
    exact Answer.row.injEq _ _ ▸ Iff.rfl
  · intro s hit hget
    exact hkeeps.pattern_eq hp (Answer.row.inj hget)

/-- All signatures collide under the one signing and none does under the other. A row is found, a row is refused, and
after a clearing a row is stored again: both report the same. -/
theorem keeps_distinct_patterns_of_collision :
    let p (i : Int64) : Pattern := .ofRow (.ofArrays [i] [Binary64.one])
    let get (i : Int64) : Call := .get (p i) (.verdict (.ok ()))
    let refuse (i : Int64) : Call := .get (p i) (.verdict (.error (.repeatedIndex .absent)))
    let calls := [get 0, get 1, get 0, refuse 2, .clear, get 1]
    let cache := (empty (.constant [])).run calls
    (empty .digest).report calls = (empty (.constant [])).report calls ∧
      ((empty (.constant [])).run (calls.take 4)).counts = (1, 2, 2) ∧
      cache.counts = (0, 1, 1) ∧
      (cache.call (get 1)).2 = .row (.ok (⟨2, p 1⟩, true)) := by
  intro p get refuse calls cache
  have hone : Binary64.one.IsPlain := ⟨by decide +kernel, by decide +kernel⟩
  have hplain : ∀ i result, (Call.get (p i) (.verdict result)).IsPlain := by
    intro i result
    refine ⟨Pattern.isPlain_ofRow ?_, result, rfl⟩
    intro x hx
    exact List.mem_singleton.mp hx ▸ hone
  have hcalls : ∀ c ∈ calls, c.IsPlain := by
    simp only [calls, get, refuse, List.forall_mem_cons]
    exact ⟨hplain _ _, hplain _ _, hplain _ _, hplain _ _, trivial, hplain _ _, nofun⟩
  obtain ⟨hreport, -, -, hget⟩ := keeps_distinct_patterns (.constant []) .digest calls hcalls
  refine ⟨hreport.symm, by decide +kernel, by decide +kernel, ?_⟩
  rw [(hget (p 1) (.verdict (.ok ())) (hplain _ _)).1]
  decide +kernel

/-- **A single coefficient is kept twice**: it is stored as a vector, and never found again. So two rows may be stored
for one pattern though all coefficients are plain. -/
theorem single_coefficient_kept_twice :
    ¬ ∀ (signing : Signing) (patterns : List Pattern), (∀ p ∈ patterns, ∀ x ∈ p.coeffs.entries, x.IsPlain) →
      let calls := patterns.map fun p => Call.get p (.verdict (.ok ()))
      ((Happening.rows (Happening.sinceClear ((empty signing).history calls))).map (·.pattern)).Nodup := by
  intro hall
  let p : Pattern := ⟨.vector [3], ⟨[], [Binary64.one]⟩⟩
  have hdistinct := hall (.constant []) [p, p] ?_
  · revert hdistinct
    decide +kernel
  · intro q hq x hx
    have hq : q = p := by simpa using hq
    rw [hq] at hx
    obtain rfl := List.mem_singleton.mp hx
    exact ⟨by decide +kernel, by decide +kernel⟩

end RowCache

end Milp
