import Milp.Row.Cache

/-!
# Calls on a row cache

A row cache among those who use it, as a run of calls. A validator is heard in the middle of a call, and it may
work on the cache itself before it comes to its verdict: look at what is stored, ask for rows, or clear it all.

* `Validation` — what a validator does up to its verdict, and `Validation.run`.
* `Happening` — what can happen to a cache; `RowCache.log` says what a call makes happen.
* `RowCache.call` and `RowCache.run` — one call, and calls in a row.
* `report` — what those who make the calls can see of them; `history` — what the calls make happen.
-/

namespace Milp

/-! ## Validators at work -/

/-- **What a validator does** about a pattern: steps on the cache, of which each may depend on what came of the
ones before it, and a verdict in the end. When it asks for a row, the row has a validator of its own. -/
inductive Validation where
  | verdict (result : Except Error Unit)
  | look (next : RowCache → Validation)
  | get (p : Pattern) (within : Validation) (next : Except Error (StoredRow × Bool) → Validation)
  | clear (next : Validation)

/-- **What can happen to a row cache.** -/
inductive Happening where
  /-- a row that was stored before is handed out -/
  | hit
  /-- a row is stored for a pattern and handed out -/
  | stored (p : Pattern) (s : StoredRow)
  | cleared
  deriving DecidableEq

namespace Happening

/-- What has happened when a row was asked for: nothing, if none was handed out. -/
def ofFound (p : Pattern) : Except Error (StoredRow × Bool) → List Happening
  | .ok (_, true) => [hit]
  | .ok (s, false) => [stored p s]
  | .error _ => []

/-- What has happened since the last clearing, after one thing more. -/
def after (recent : List Happening) : Happening → List Happening
  | cleared => []
  | h => recent ++ [h]

theorem after_hit (recent : List Happening) : after recent hit = recent ++ [hit] := rfl

theorem after_stored (recent : List Happening) (p : Pattern) (s : StoredRow) :
    after recent (stored p s) = recent ++ [stored p s] := rfl

/-- **What has happened since the last clearing.** -/
def sinceClear (past : List Happening) : List Happening := past.foldl after []

/-- The row that was stored. -/
def row? : Happening → Option StoredRow
  | stored _ s => some s
  | _ => none

/-- **The rows that were stored**, in the order of time. -/
def rows (past : List Happening) : List StoredRow := past.filterMap row?

theorem rows_after_hit (recent : List Happening) : rows (after recent hit) = rows recent := by
  rw [after_hit, rows, List.filterMap_append]
  exact List.append_nil _

theorem rows_after_stored (recent : List Happening) (p : Pattern) (s : StoredRow) :
    rows (after recent (stored p s)) = rows recent ++ [s] := by
  rw [after_stored, rows, List.filterMap_append]
  rfl

end Happening

/-- Whether a pattern is looked for and not found; only then its validator is heard. -/
def RowCache.isNew (cache : RowCache) (p : Pattern) : Bool :=
  match cache.lookup p with
  | .ok none => true
  | _ => false

namespace Validation

/-- **Carries out a validation** on a cache. -/
def run : Validation → RowCache → RowCache × Except Error Unit
  | verdict result, cache => (cache, result)
  | look next, cache => (next cache).run cache
  | get p within next, cache =>
    let (cache', found) := cache.getOrInsert (fun _ c => within.run c) p
    (next found).run cache'
  | clear next, cache => next.run cache.clear

/-- A validation as the validator of a pattern. -/
def validator (v : Validation) : Validator := fun _ cache => v.run cache

/-- What happens to a cache during a validation, in the order of time. -/
def log : Validation → RowCache → List Happening
  | verdict _, _ => []
  | look next, cache => (next cache).log cache
  | get p within next, cache =>
    let (cache', found) := cache.getOrInsert (fun _ c => within.run c) p
    (if cache.isNew p then within.log cache else []) ++ Happening.ofFound p found ++
      (next found).log cache'
  | clear next, cache => .cleared :: next.log cache.clear

end Validation

namespace RowCache

/-! ## Calls -/

/-- **A call** on a row cache. -/
inductive Call where
  | get (p : Pattern) (v : Validation)
  | lookup (p : Pattern)
  | contains (p : Pattern)
  | clear

/-- **The answer** to a call. -/
inductive Answer where
  | row (found : Except Error (StoredRow × Bool))
  | lookedUp (found : Except Error (Option StoredRow))
  | contained (found : Except Error Bool)
  | done

/-- **Carries out a call.** -/
def call (cache : RowCache) : Call → RowCache × Answer
  | .get p v =>
    let (cache', found) := cache.getOrInsert v.validator p
    (cache', .row found)
  | .lookup p => (cache, .lookedUp (cache.lookup p))
  | .contains p => (cache, .contained (cache.contains p))
  | .clear => (cache.clear, .done)

/-- What happens to a cache during a call. -/
def log (cache : RowCache) : Call → List Happening
  | .get p v =>
    (if cache.isNew p then v.log cache else []) ++
      Happening.ofFound p (cache.getOrInsert v.validator p).2
  | .lookup _ | .contains _ => []
  | .clear => [.cleared]

/-! ## Calls in a row -/

/-- **The cache after calls in a row.** -/
def run (cache : RowCache) (calls : List Call) : RowCache :=
  calls.foldl (fun cache c => (cache.call c).1) cache

/-- What happens to a cache during calls in a row. -/
def history (cache : RowCache) : List Call → List Happening
  | [] => []
  | c :: rest => cache.log c ++ (cache.call c).1.history rest

/-- **What can be seen of a cache**: its two counts, and the number of its rows. -/
def counts (cache : RowCache) : Nat × Nat × Nat := (cache.hits, cache.misses, cache.size)

/-- **What can be seen of calls in a row**: after each of them the answer, and the cache. -/
def report (cache : RowCache) : List Call → List (Answer × Nat × Nat × Nat)
  | [] => []
  | c :: rest => ((cache.call c).2, (cache.call c).1.counts) :: (cache.call c).1.report rest

@[simp] theorem run_nil (cache : RowCache) : cache.run [] = cache := rfl

@[simp] theorem run_cons (cache : RowCache) (c : Call) (rest : List Call) :
    cache.run (c :: rest) = (cache.call c).1.run rest := rfl

theorem run_append (cache : RowCache) (calls later : List Call) :
    cache.run (calls ++ later) = (cache.run calls).run later :=
  List.foldl_append

end RowCache

end Milp
