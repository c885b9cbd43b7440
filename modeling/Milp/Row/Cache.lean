import Milp.Row.Signature

/-!
# The row cache

Models that repeat the same left sides share one stored row. The cache files rows under the
signature of their pattern and never trusts a signature alone: a row is handed out only if its
pattern agrees with the one asked for, so that several rows may share a signature. A pattern that cannot be
signed is refused.

* `RowCache.getOrInsert` — the row for a pattern, stored first if it is new and passes the validator.
  A validator may itself work on the cache; the pattern is looked up again after it has run.
* `hits` and `misses` count the calls that found and that stored a row since the last `clear`.
-/

namespace Milp

/-- **A stored row.** The serial number tells stored rows apart, also those that agree. -/
structure StoredRow where
  serial : Nat
  pattern : Pattern
  deriving DecidableEq

/-- The row of a stored pattern. -/
def StoredRow.row (s : StoredRow) : Row := s.pattern.row

@[simp] theorem StoredRow.row_mk_ofRow (serial : Nat) (r : Row) : (mk serial (.ofRow r)).row = r :=
  Pattern.row_ofRow r

/-- **The row cache.** Rows are filed under their signature, in the order in which they were stored. -/
structure RowCache where
  signing : Signing
  files : List (Signature × List StoredRow)
  hits : Nat
  misses : Nat
  nextSerial : Nat

/-- What decides whether a new pattern may be stored. It sees the pattern and the cache, and may
change the cache. -/
abbrev Validator := Pattern → RowCache → RowCache × Except Error Unit

/-- The validator that lets every pattern pass. -/
def Validator.accept : Validator := fun _ cache => (cache, .ok ())

/-- A validator that only looks at the pattern. -/
def Validator.ofCheck (check : Pattern → Except Error Unit) : Validator :=
  fun p cache => (cache, check p)

namespace RowCache

/-- A cache without rows. -/
def empty (signing : Signing) : RowCache := ⟨signing, [], 0, 0, 0⟩

/-- The rows filed under a signature. -/
def file (cache : RowCache) (key : Signature) : List StoredRow :=
  (cache.files.lookup key).getD []

/-- **All stored rows.** -/
def rows (cache : RowCache) : List StoredRow := cache.files.flatMap (·.2)

/-- The number of stored rows. -/
def size (cache : RowCache) : Nat := cache.rows.length

/-- The row under a key that agrees with a pattern, if there is one. -/
def findUnder (cache : RowCache) (key : Signature) (p : Pattern) : Option StoredRow :=
  (cache.file key).find? fun s => s.pattern.agrees p

/-- **The stored row that agrees with a pattern**, if there is one. The pattern has to be signed first. -/
def lookup (cache : RowCache) (p : Pattern) : Except Error (Option StoredRow) := do
  return cache.findUnder (← cache.signing.sign p) p

/-- Whether the pattern is stored. -/
def contains (cache : RowCache) (p : Pattern) : Except Error Bool := do
  return (← cache.lookup p).isSome

/-- Files a row behind those that have the same signature. -/
def fileUnder (key : Signature) (row : StoredRow) :
    List (Signature × List StoredRow) → List (Signature × List StoredRow)
  | [] => [(key, [row])]
  | (k, rows) :: rest =>
    if k = key then (k, rows ++ [row]) :: rest else (k, rows) :: fileUnder key row rest

/-- Stores a new row under a key. -/
def store (cache : RowCache) (key : Signature) (kept : Pattern) : RowCache × StoredRow :=
  let row : StoredRow := ⟨cache.nextSerial, kept⟩
  ({ cache with
      files := fileUnder key row cache.files
      misses := cache.misses + 1
      nextSerial := cache.nextSerial + 1 }, row)

/-- Counts a hit. -/
def countHit (cache : RowCache) : RowCache := { cache with hits := cache.hits + 1 }

/-- The row under a key for a pattern, stored in the given form if it is new. -/
def findOrStore (cache : RowCache) (key : Signature) (p kept : Pattern) : RowCache × (StoredRow × Bool) :=
  match cache.findUnder key p with
  | some row => (cache.countHit, (row, true))
  | none =>
    let (cache', row) := cache.store key kept
    (cache', (row, false))

/-- **The row for a pattern**, and whether it was there before. A new pattern is stored after the
validator has passed it, if it can be kept; a refused pattern stores nothing. -/
def getOrInsert (cache : RowCache) (validate : Validator) (p : Pattern) :
    RowCache × Except Error (StoredRow × Bool) :=
  match cache.signing.sign p with
  | .error e => (cache, .error e)
  | .ok key =>
    match cache.findUnder key p with
    | some row => (cache.countHit, .ok (row, true))
    | none =>
      match validate p cache with
      | (cache', .error e) => (cache', .error e)
      | (cache', .ok ()) =>
        match p.kept with
        | .error e => (cache', .error e)
        | .ok kept =>
          let (cache'', found) := cache'.findOrStore key p kept
          (cache'', .ok found)

/-- Forgets all rows and counts. Serial numbers are not used again. -/
def clear (cache : RowCache) : RowCache := { cache with files := [], hits := 0, misses := 0 }

end RowCache

end Milp
