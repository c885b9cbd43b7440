import Milp.Instance.Basic

/-!
# Loading instances

An instance goes into a model as a series of edits, in one of four ways that differ in how rows are
added. Bounds that lie beyond the model's infinity are moved to it first.
-/

namespace Milp

/-- **The ways to add the rows of an instance**: as full vectors, as sparse rows, through the row cache,
or as one batch. -/
inductive Mode where
  | dense
  | sparse
  | cached
  | batch
  deriving DecidableEq

namespace Mode

def all : List Mode := [dense, sparse, cached, batch]

def name : Mode → String
  | dense => "dense"
  | sparse => "sparse"
  | cached => "cached"
  | batch => "batch"

/-- The mode that an argument names. -/
def read : Arg → Except Error Mode
  | .text s =>
    match all.find? fun m => m.name == s with
    | some m => .ok m
    | none => .error (.unknownMode (.text s))
  | a => .error (.unknownMode a)

end Mode

namespace GivenRow

/-! ## Full vectors -/

/-- The position in a vector of `n` entries that an index means: negative ones count from the end. -/
def position? (n : Nat) (i : Int64) : Option Nat :=
  let k := if i.toInt < 0 then i.toInt + n else i.toInt
  if 0 ≤ k ∧ k < n then some k.toNat else none

/-- **The full vector of a row** over `n` columns. Coefficients are stretched to the shape of the indices;
of repeated columns the last coefficient counts. Where both faults occur, a single index is told as out
of bounds, and an array of them as unfit for its coefficients. -/
def spread (n : Nat) (r : GivenRow) : Except Error (List Binary64) :=
  match r.indices.entries.mapM (position? n), r.coeffs.stretch? r.indices.shape with
  | some positions, some coeffs =>
    .ok ((positions.zip coeffs).foldl (fun xs t => xs.set t.1 t.2)
      (List.replicate n Binary64.zero))
  | none, some _ => .error (.fault .outOfBounds)
  | some _, none => .error (.fault .unreadable)
  | none, none => .error (.fault (if r.indices.shape.isEmpty then .outOfBounds else .unreadable))

/-! ## Bounds -/

/-- A lower row bound, not below minus infinity. It has to be a real number. -/
def lower (infinity : Binary64) (lo : Arg) : Except Error Arg :=
  match lo.real? with
  | none => .error (.fault .wrongKind)
  | some x => .ok (if x.lt (.float infinity.neg) then .float infinity.neg else lo)

/-- An upper row bound, not above infinity. It has to be a real number. -/
def upper (infinity : Binary64) (hi : Arg) : Except Error Arg :=
  match hi.real? with
  | none => .error (.fault .wrongKind)
  | some x => .ok (if (Arg.Real.float infinity).lt x then .float infinity else hi)

end GivenRow

/-- Numbers as an argument. -/
def Grid.numberArg (g : Grid Binary64) : Arg := g.toArg .float

/-- Positions as an argument. -/
def Grid.positionArg (g : Grid Int64) : Arg := g.toArg fun i => .int i.toInt

namespace GivenInstance

/-! ## Edits -/

/-- The edits that set up the columns. -/
def columnEdits (p : GivenInstance) (infinity : Binary64) : List Edit :=
  [.objective p.objective.numberArg,
   .columnBounds (p.lower.map fun x => x.maximum infinity.neg).numberArg
     (p.upper.map fun x => x.minimum infinity).numberArg,
   .columnInteger (p.integer.toArg .flag)]

/-- The edit that adds one row of an instance with `n` columns. -/
def rowEdit (n : Nat) (infinity : Binary64) (mode : Mode) (r : GivenRow) : Except Error Edit := do
  let lo ← GivenRow.lower infinity r.lo
  let hi ← GivenRow.upper infinity r.hi
  match mode with
  | .dense => return .denseRow (Arg.ofFloats (← r.spread n)) lo hi
  | .cached => return .cachedRow r.coeffs.numberArg r.indices.positionArg lo hi
  | _ => return .sparseRow r.coeffs.numberArg r.indices.positionArg lo hi

/-- The offsets of rows laid out one after the other. Every row needs a first axis. -/
def offsets (first : Int64) : List GivenRow → Except Error (List Int64)
  | [] => .ok [first]
  | r :: rest =>
    match r.indices.shape with
    | [] => .error (.fault .outOfBounds)
    | n :: _ => do return first :: (← offsets (first + Int64.ofNat n) rest)

/-- Arrays joined along their first axis; the empty vector when there are none. -/
def joined {α : Type} (gs : List (Grid α)) : Except Error (Grid α) :=
  if gs.isEmpty then .ok (.vector [])
  else
    match Grid.join? gs with
    | some g => .ok g
    | none => .error (.fault .unreadable)

/-- **The edit that adds all rows at once.** Bounds are taken as they are. -/
def batchEdit (p : GivenInstance) : Except Error Edit := do
  let starts ← offsets 0 p.rows
  let indices ← joined (p.rows.map GivenRow.indices)
  let coeffs ← joined (p.rows.map GivenRow.coeffs)
  let lower ← (Arg.list (p.rows.map GivenRow.lo)).numberArray
  let upper ← (Arg.list (p.rows.map GivenRow.hi)).numberArray
  return .rows (.int p.rows.length) (Grid.vector starts).positionArg indices.positionArg
    coeffs.numberArg lower.numberArg upper.numberArg

/-- The edits that add the rows. -/
def rowEdits (p : GivenInstance) (infinity : Binary64) (mode : Mode) : List (Except Error Edit) :=
  match mode with
  | .batch => [p.batchEdit]
  | _ => p.rows.map (rowEdit p.objective.entries.length infinity mode)

/-- **The edits that load an instance** into a model with a given infinity, in order. One that cannot be
made stops the loading when its turn comes. -/
def edits (p : GivenInstance) (infinity : Binary64) (mode : Mode) : List (Except Error Edit) :=
  (p.columnEdits infinity).map .ok ++ p.rowEdits infinity mode

end GivenInstance

end Milp
