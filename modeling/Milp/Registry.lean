import Milp.Session.Basic

/-!
# Registries

Sessions under handles. Handles count up from one and are never used again, so that a handle which
has been disposed of can be told from one that never was. All sessions of a registry share one row
cache.

* `Registry.get` — the session of a handle that is in use.
* `Registry.dispose` — takes a handle out of use and disposes of its session.
-/

namespace Milp

/-- **A registry**: the sessions in the order of their handles, the handles in use, and the cache. -/
structure Registry where
  sessions : List Session
  inUse : List Nat
  cache : RowCache

namespace Registry

/-- Registries write their records under this name. -/
def logger : String := Log.loggerName "registry"

/-- A registry without sessions. -/
def empty : Registry := ⟨[], [], RowCache.empty .digest⟩

/-- The number of sessions in use. -/
def size (r : Registry) : Nat := r.inUse.length

/-- **The handles in use**, in increasing order. -/
def handles (r : Registry) : List Nat := r.inUse

/-- The session that was made for a handle, in use or not. -/
def session? (r : Registry) (handle : Nat) : Option Session :=
  if handle = 0 then none else r.sessions[handle - 1]?

/-- Puts a session in the place of the one that was made for a handle. -/
def update (r : Registry) (handle : Nat) (s : Session) : Registry :=
  if handle = 0 then r else { r with sessions := r.sessions.set (handle - 1) s }

/-! ## Handles -/

/-- The number that an argument stands for as a handle. Numbers that are equal are one handle; lists
and records cannot be handles. -/
def handle? : Arg → Except Error (Option Nat)
  | .list items => .error (.notAKey (.list items))
  | .record fields => .error (.notAKey (.record fields))
  | a =>
    match a.whole? with
    | some n => .ok (if 0 ≤ n then some n.toNat else none)
    | none => .ok none

/-- The handle in use that an argument stands for. -/
def find? (r : Registry) (h : Arg) : Except Error (Option Nat) := do
  match ← handle? h with
  | some n => return if r.inUse.contains n then some n else none
  | none => return none

/-- Whether an argument stands for a handle in use. -/
def contains (r : Registry) (h : Arg) : Except Error Bool := do
  return (← r.find? h).isSome

/-- Whether an integer has been given out as a handle. -/
def wasIssued (r : Registry) (h : Arg) : Bool :=
  match h.int? with
  | some n => decide (0 < n ∧ n ≤ r.sessions.length)
  | none => false

/-- Why a handle that is not in use cannot be used. -/
def refusal (r : Registry) (h : Arg) : Error :=
  if r.wasIssued h then .handleDisposed h else .handleUnknown h

/-- **The handle in use that an argument stands for**, or why there is none. -/
def lookup (r : Registry) (h : Arg) : Except Error Nat := do
  match ← r.find? h with
  | some n => return n
  | none => throw (r.refusal h)

/-- **The session of a handle in use.** -/
def get (r : Registry) (h : Arg) : Except Error Session := do
  match r.session? (← r.lookup h) with
  | some s => return s
  | none => throw (r.refusal h)

/-! ## Making and disposing -/

/-- **Makes a session** under the next handle. -/
def construct (r : Registry) (backend : Backend) (timeLimit columns rowsHint : Arg) :
    Except Error (Registry × Nat × List Log.Record) := do
  let s ← Session.create backend timeLimit columns rowsHint
  let handle := r.sessions.length + 1
  let width := (s.stage.model?.map Model.columns).getD 0
  return ({ r with
      sessions := r.sessions ++ [{ s with handle := some handle }]
      inUse := r.inUse ++ [handle] },
    handle, [⟨Log.debug, logger, .text s!"Constructed model {handle} with {width} columns"⟩])

/-- Disposes of the session that was made for a handle. -/
def release (r : Registry) (handle : Nat) : Registry × List Log.Record :=
  match r.session? handle with
  | some s =>
    let (s', lines) := s.dispose
    (r.update handle s', lines)
  | none => (r, [])

/-- The handle in use that is to be disposed of. When none is in use, nothing is looked up. -/
def findToDispose? (r : Registry) (h : Arg) : Except Error (Option Nat) :=
  if r.inUse.isEmpty then .ok none else r.find? h

/-- **Takes a handle out of use** and disposes of its session. A handle that has been disposed of may be
disposed of again. -/
def dispose (r : Registry) (h : Arg) : Except Error (Registry × List Log.Record) := do
  match ← r.findToDispose? h with
  | some handle => return { r with inUse := r.inUse.erase handle }.release handle
  | none =>
    if r.wasIssued h then
      return (r, [⟨Log.debug, logger, .text s!"Model {h.int?.getD 0} already disposed"⟩])
    else throw (.handleUnknown h)

/-- **Takes all handles out of use** and disposes of their sessions. -/
def disposeAll (r : Registry) : Registry × List Log.Record :=
  r.inUse.foldl
    (fun (p : Registry × List Log.Record) handle =>
      let (r', lines) := p.1.release handle
      (r', p.2 ++ lines))
    ({ r with inUse := [] }, [])

end Registry

end Milp
