import Milp.Proofs.Model.Columns
import Milp.Proofs.Row.Cache

/-!
# Adding a single row

A row is added from a full vector, or from columns and coefficients, and then with the row cache or without.
The last two ways read their arguments alike; they differ in what they check, and in which order.

* `addDenseRow_eq_ok_iff` and `addSparseRow_eq_ok_iff` — the rows that are accepted without the cache.
* `readRow` — the part that both ways begin with: `addSparseRow_eq` and `readCachedRow_eq`.
* `CachedAddition` — everything that adding a row through the cache can come to, once its arguments have been
  read: `cachedAddition`.
-/

namespace Milp.Model

variable {m : Model}

/-! ## Full vectors -/

/-- **A full vector is accepted** if it is finite and has a range; its nonzeros are added. -/
theorem addDenseRow_eq_ok_iff {coeffs lo hi : Arg} {m' : Model} :
    m.addDenseRow coeffs lo hi = .ok m' ↔ m.frozen = false ∧ ∃ xs l u,
      numberVector coeffs (.int m.columns) "dense row" = .ok xs ∧ (∀ x ∈ xs, x.isFinite = true) ∧
        rowBounds lo hi = .ok (l, u) ∧ m' = m.append (Row.ofDense xs) l u := by
  rw [addDenseRow, (Operation.settles_addDenseRow m coeffs lo hi).outcome_eq, whenMutable_eq_ok_iff]
  refine and_congr_right fun _ => ?_
  constructor
  · intro h
    obtain ⟨xs, hread, h⟩ := bind_eq_ok_iff.mp h
    obtain ⟨_, hfinite, h⟩ := bind_eq_ok_iff.mp h
    obtain ⟨⟨l, u⟩, hbounds, h⟩ := bind_eq_ok_iff.mp h
    cases h
    exact ⟨xs, l, u, hread, checkFinite_eq_ok_iff.mp hfinite, hbounds, rfl⟩
  · rintro ⟨xs, l, u, hread, hfinite, hbounds, rfl⟩
    rw [hread, hbounds]
    show (checkFinite xs "dense row" >>= fun _ => _) = _
    rw [checkFinite_eq_ok_iff.mpr hfinite]
    rfl

/-! ## Columns and coefficients -/

/-- **The row that columns and coefficients stand for**, not yet checked. -/
def readRow (m : Model) (coeffs indices : Arg) : Except Error Row :=
  m.whenMutable do
    let coeffs ← coefficientVector coeffs "sparse row coefficients"
    let indices ← indexVector indices "sparse row indices"
    return .ofArrays indices coeffs

theorem readRow_eq_ok {coeffs indices : Arg} {r : Row} (h : m.readRow coeffs indices = .ok r) :
    coefficientVector coeffs "sparse row coefficients" = .ok r.coeffs ∧
      indexVector indices "sparse row indices" = .ok r.indices := by
  obtain ⟨-, h⟩ := whenMutable_eq_ok_iff.mp h
  obtain ⟨xs, hcoeffs, h⟩ := bind_eq_ok_iff.mp h
  obtain ⟨ks, hindices, h⟩ := bind_eq_ok_iff.mp h
  cases h
  exact ⟨hcoeffs, hindices⟩

/-- **Without the cache** the pattern is checked before the bounds. -/
theorem addSparseRow_eq (coeffs indices lo hi : Arg) :
    m.addSparseRow coeffs indices lo hi = (m.readRow coeffs indices >>= fun r =>
      checkPattern r.indices r.coeffs m.columns .absent >>= fun _ =>
        rowBounds lo hi >>= fun b => .ok (m.append r b.1 b.2)) := by
  rw [addSparseRow, (Operation.settles_addSparseRow m coeffs indices lo hi).outcome_eq, readRow, ← whenMutable_bind]
  simp only [bind_assoc, pure_bind]
  rfl

/-- **A row is accepted without the cache** if it fits and has a range. -/
theorem addSparseRow_eq_ok_iff {coeffs indices lo hi : Arg} {m' : Model} :
    m.addSparseRow coeffs indices lo hi = .ok m' ↔ ∃ r l u, m.readRow coeffs indices = .ok r ∧
      r.Fits m.columns ∧ rowBounds lo hi = .ok (l, u) ∧ m' = m.append r l u := by
  rw [addSparseRow_eq]
  constructor
  · intro h
    obtain ⟨r, hread, h⟩ := bind_eq_ok_iff.mp h
    obtain ⟨_, hpattern, h⟩ := bind_eq_ok_iff.mp h
    obtain ⟨⟨l, u⟩, hbounds, h⟩ := bind_eq_ok_iff.mp h
    cases h
    exact ⟨r, l, u, hread, checkPattern_eq_ok_iff.mp hpattern, hbounds, rfl⟩
  · rintro ⟨r, l, u, hread, hfits, hbounds, rfl⟩
    rw [hread, hbounds]
    show (checkPattern r.indices r.coeffs m.columns .absent >>= fun _ => _) = _
    rw [checkPattern_eq_ok_iff.mpr hfits]
    rfl

/-- **With the cache** only the lengths are checked before the bounds; the rest of the pattern is left to the
cache. -/
theorem readCachedRow_eq (coeffs indices lo hi : Arg) :
    m.readCachedRow coeffs indices lo hi = (m.readRow coeffs indices >>= fun r =>
      if r.indices.length = r.coeffs.length then rowBounds lo hi >>= fun b => .ok (r, b.1, b.2)
      else .error (.patternLengths r.indices.length r.coeffs.length .absent)) := by
  rw [readRow, ← whenMutable_bind]
  simp only [bind_assoc, pure_bind]
  refine bind_congr fun _ => ?_
  cases coefficientVector coeffs "sparse row coefficients" with
  | error e => rfl
  | ok cs =>
    cases indexVector indices "sparse row indices" with
    | error e => rfl
    | ok is =>
      show (if is.length ≠ cs.length then _ else _) = (if is.length = cs.length then _ else _)
      by_cases hlength : is.length = cs.length
      · rw [if_pos hlength, if_neg (Decidable.not_not.mpr hlength)]
        rfl
      · rw [if_neg hlength, if_pos hlength]
        rfl

/-- **What has been read for the cache**: a row with as many coefficients as indices, and a range. -/
theorem readCachedRow_eq_ok_iff {coeffs indices lo hi : Arg} {r : Row} {l u : Binary64} :
    m.readCachedRow coeffs indices lo hi = .ok (r, l, u) ↔
      m.readRow coeffs indices = .ok r ∧ r.indices.length = r.coeffs.length ∧
        rowBounds lo hi = .ok (l, u) := by
  rw [readCachedRow_eq, bind_eq_ok_iff]
  constructor
  · rintro ⟨s, hread, h⟩
    split at h
    · rename_i hlength
      obtain ⟨b, hbounds, h⟩ := bind_eq_ok_iff.mp h
      cases h
      exact ⟨hread, hlength, hbounds⟩
    · cases h
  · rintro ⟨hread, hlength, hbounds⟩
    refine ⟨r, hread, ?_⟩
    rw [if_pos hlength, hbounds]
    rfl

/-! ## Through the cache -/

/-- **What adding a row through the cache comes to** when the arguments have been read as the row `r` and the
bounds `lo` and `hi`: the cache afterwards, and the answer. -/
inductive CachedAddition (m : Model) (cache : RowCache) (r : Row) (lo hi : Binary64) :
    RowCache × Except Error (Model × Bool) → Prop where
  /-- the cache has the row, and this model is wide enough -/
  | shared (s : StoredRow) (hfind : cache.lookup (.ofRow r) = .ok (some s))
      (hwide : s.row.maxIndex < m.columns) :
      CachedAddition m cache r lo hi (cache.countHit, .ok (m.append s.row lo hi, true))
  /-- the cache has the row from a wider model -/
  | tooWide (s : StoredRow) (hfind : cache.lookup (.ofRow r) = .ok (some s))
      (hnarrow : (m.columns : Int) ≤ s.row.maxIndex) :
      CachedAddition m cache r lo hi
        (cache.countHit, .error (.cachedIndexRange m.columns s.row.maxIndex))
  /-- the row is new and does not pass the check -/
  | refused (e : Error) (hnew : cache.lookup (.ofRow r) = .ok none)
      (hcheck : checkPattern r.indices r.coeffs m.columns .absent = .error e) :
      CachedAddition m cache r lo hi (cache, .error e)
  /-- the row is new and is stored -/
  | stored {key : Signature} (hkey : cache.signing.sign (.ofRow r) = .ok key)
      (hnew : cache.lookup (.ofRow r) = .ok none) (hfits : r.Fits m.columns) :
      CachedAddition m cache r lo hi (cache.withRow key r, .ok (m.append r lo hi, false))

/-- Arguments that cannot be read are refused before the cache is asked. -/
theorem addCachedRow_of_error {cache : RowCache} {coeffs indices lo hi : Arg} {e : Error}
    (h : m.readCachedRow coeffs indices lo hi = .error e) :
    m.addCachedRow cache coeffs indices lo hi = (cache, .error e) := by
  rw [addCachedRow_eq, h]

theorem cachedAddition (cache : RowCache) {coeffs indices lo hi : Arg} {r : Row} {l u : Binary64}
    (h : m.readCachedRow coeffs indices lo hi = .ok (r, l, u)) :
    CachedAddition m cache r l u (m.addCachedRow cache coeffs indices lo hi) := by
  have hfetched : RowCache.Fetched cache m.columns r (cache.getOrInsert m.validator (.ofRow r)) :=
    cache.fetched_getOrInsert m.columns r
  simp only [addCachedRow_eq, h]
  generalize cache.getOrInsert m.validator (.ofRow r) = answer at hfetched
  cases hfetched with
  | hit s hfind =>
    simp only [Bool.true_and, decide_eq_true_eq]
    split
    · rename_i hnarrow
      exact .tooWide s hfind hnarrow
    · rename_i hwide
      exact .shared s hfind (Int.not_le.mp hwide)
  | refused e hnew hcheck => exact .refused e hnew hcheck
  | stored hkey hnew hfits =>
    simp only [RowCache.row_newRow]
    exact .stored hkey hnew hfits

end Milp.Model
