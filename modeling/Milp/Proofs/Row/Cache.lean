import Milp.Proofs.Row.Agreement
import Milp.Proofs.Steps
import Milp.Row.Cache

/-!
# What the row cache holds

A row that the cache hands out has been checked by the model that brought it in, and that model may have
had more columns. Which columns a row needs can be read off its largest index.

* `alike_of_lookup` — a row that is found agrees with the one that was asked for.
* `RowCache.Fetched` — everything that asking the cache for a row can come to: `fetched_getOrInsert`.
* `RowCache.Sound` — every stored row fits some width.
-/

namespace Milp.RowCache

/-! ## Stored rows -/

/-- **What is found for a pattern** is found under its key. -/
theorem lookup_eq_ok_iff {cache : RowCache} {p : Pattern} {found : Option StoredRow} :
    cache.lookup p = .ok found ↔ ∃ key, cache.signing.sign p = .ok key ∧ cache.findUnder key p = found := by
  rw [lookup, bind_eq_ok_iff]
  exact exists_congr fun key => and_congr_right fun _ => ⟨Except.ok.inj, congrArg _⟩

theorem lookup_of_sign {cache : RowCache} {p : Pattern} {key : Signature} (h : cache.signing.sign p = .ok key) :
    cache.lookup p = .ok (cache.findUnder key p) :=
  lookup_eq_ok_iff.mpr ⟨key, h, rfl⟩

/-- Rows can always be signed. -/
theorem exists_sign_ofRow (cache : RowCache) (r : Row) : ∃ key, cache.signing.sign (.ofRow r) = .ok key :=
  cache.signing.signs _ (List.cons_ne_nil _ _)

theorem mem_flatMap_of_mem_lookup {key : Signature} {s : StoredRow}
    {files : List (Signature × List StoredRow)} (h : s ∈ (files.lookup key).getD []) :
    s ∈ files.flatMap (·.2) := by
  induction files with
  | nil => cases h
  | cons f rest ih =>
    rw [List.flatMap_cons]
    rw [List.lookup_cons] at h
    split at h
    · exact List.mem_append_left _ h
    · exact List.mem_append_right _ (ih h)

/-- A row that is found is stored. -/
theorem mem_rows_of_lookup {cache : RowCache} {p : Pattern} {s : StoredRow}
    (h : cache.lookup p = .ok (some s)) : s ∈ cache.rows := by
  obtain ⟨key, -, hfind⟩ := lookup_eq_ok_iff.mp h
  exact mem_flatMap_of_mem_lookup (List.mem_of_find?_eq_some hfind)

/-- A row that is found agrees with the row that was asked for. -/
theorem alike_of_lookup {cache : RowCache} {r : Row} {s : StoredRow}
    (h : cache.lookup (.ofRow r) = .ok (some s)) : s.row.Alike r := by
  obtain ⟨key, -, hfind⟩ := lookup_eq_ok_iff.mp h
  unfold findUnder at hfind
  have hagrees := List.find?_some hfind
  rw [Pattern.agrees] at hagrees
  exact Row.alike_of_agrees (Bool.and_eq_true_iff.mp hagrees).2

theorem mem_fileUnder {key : Signature} {row s : StoredRow} {files : List (Signature × List StoredRow)}
    (h : s ∈ (fileUnder key row files).flatMap (·.2)) : s = row ∨ s ∈ files.flatMap (·.2) := by
  induction files with
  | nil =>
    left
    simpa [fileUnder] using h
  | cons f rest ih =>
    obtain ⟨k, rows⟩ := f
    rw [List.flatMap_cons]
    unfold fileUnder at h
    split at h
    · rw [List.flatMap_cons] at h
      rcases List.mem_append.mp h with h | h
      · rcases List.mem_append.mp h with h | h
        · exact .inr (List.mem_append_left _ h)
        · exact .inl (List.mem_singleton.mp h)
      · exact .inr (List.mem_append_right _ h)
    · rw [List.flatMap_cons] at h
      rcases List.mem_append.mp h with h | h
      · exact .inr (List.mem_append_left _ h)
      · exact (ih h).imp_right (List.mem_append_right _)

/-! ## Asking for a row -/

/-- The row that is stored for a row which is new. -/
def newRow (cache : RowCache) (r : Row) : StoredRow := ⟨cache.nextSerial, .ofRow r⟩

@[simp] theorem row_newRow (cache : RowCache) (r : Row) : (cache.newRow r).row = r := StoredRow.row_mk_ofRow _ r

/-- The cache after a new row has been stored under a key. -/
def withRow (cache : RowCache) (key : Signature) (r : Row) : RowCache := (cache.store key (.ofRow r)).1

/-- **What asking for a row comes to** in a model with `n` columns: the cache afterwards, and the answer. -/
inductive Fetched (cache : RowCache) (n : Nat) (r : Row) :
    RowCache × Except Error (StoredRow × Bool) → Prop where
  /-- a row that agrees is stored: it is handed out unchecked, and a hit is counted -/
  | hit (s : StoredRow) (hfind : cache.lookup (.ofRow r) = .ok (some s)) :
      Fetched cache n r (cache.countHit, .ok (s, true))
  /-- the row is new and does not pass the check: the cache stays as it is -/
  | refused (e : Error) (hnew : cache.lookup (.ofRow r) = .ok none)
      (hcheck : checkPattern r.indices r.coeffs n .absent = .error e) :
      Fetched cache n r (cache, .error e)
  /-- the row is new and fits: it is stored -/
  | stored {key : Signature} (hkey : cache.signing.sign (.ofRow r) = .ok key)
      (hnew : cache.lookup (.ofRow r) = .ok none) (hfits : r.Fits n) :
      Fetched cache n r (cache.withRow key r, .ok (cache.newRow r, false))

theorem fetched_getOrInsert (cache : RowCache) (n : Nat) (r : Row) :
    Fetched cache n r
      (cache.getOrInsert (.ofCheck fun p => p.check (.int n) .absent) (.ofRow r)) := by
  obtain ⟨key, hkey⟩ := cache.exists_sign_ofRow r
  have hlookup := lookup_of_sign hkey
  simp only [getOrInsert, hkey]
  cases hfind : cache.findUnder key (.ofRow r) with
  | some s => exact .hit s (hlookup.trans (congrArg _ hfind))
  | none =>
    rw [hfind] at hlookup
    simp only [Validator.ofCheck, Pattern.check_ofRow]
    cases hcheck : checkPattern r.indices r.coeffs n .absent with
    | error e => exact .refused e hlookup hcheck
    | ok _ =>
      -- the check leaves the cache alone, so the row is still missing when it is looked up again
      simp only [Pattern.kept_ofRow, findOrStore, hfind]
      exact .stored hkey hlookup (checkPattern_eq_ok_iff.mp hcheck)

/-! ## Soundness -/

/-- **Every stored row fits some width**, namely that of the model which brought it in. -/
def Sound (cache : RowCache) : Prop := ∀ s ∈ cache.rows, ∃ n, s.row.Fits n

theorem sound_empty (signing : Signing) : (empty signing).Sound := by
  intro s hs
  cases hs

/-- Counting a hit stores nothing. -/
theorem Sound.countHit {cache : RowCache} (h : cache.Sound) : cache.countHit.Sound := h

/-- A row that fits may be stored. -/
theorem Sound.withRow {cache : RowCache} (h : cache.Sound) (key : Signature) {r : Row} {n : Nat}
    (hfits : r.Fits n) : (cache.withRow key r).Sound := by
  intro s hs
  rcases mem_fileUnder hs with hnew | hold
  · have hrow : s.row = r := hnew ▸ cache.row_newRow r
    exact ⟨n, hrow ▸ hfits⟩
  · exact h s hold

end Milp.RowCache
