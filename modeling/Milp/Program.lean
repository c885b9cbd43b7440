import Milp.Model.Edit

/-!
# Linear programs

The form in which an engine takes a model: columns with optional bounds, an objective over all
columns, and one-sided or equal constraints. A row with two finite sides becomes two constraints, a
row without finite sides none. A row without nonzeros never becomes a constraint: it holds
everywhere or nowhere, and in the second case its position is among `Model.violated`.

* `Model.program` is the linear program of a model.
* `Model.translate` refuses a model whose column bounds are no numbers, and gives its program otherwise.
-/

namespace Milp

/-- A column of a linear program. A missing bound means there is none. -/
structure Program.Column where
  lower? : Option Binary64
  upper? : Option Binary64
  integer : Bool
  deriving DecidableEq

/-- How the two sides of a constraint compare. -/
inductive Sense where
  | atLeast
  | equal
  | atMost
  deriving DecidableEq

/-- A constraint, made from one side of the row at a position. Its terms name columns by position. -/
structure Program.Constraint where
  row : Nat
  sense : Sense
  terms : List (Nat × Binary64)
  bound : Binary64
  deriving DecidableEq

/-- **A linear program**, to be maximized. -/
structure Program where
  columns : List Program.Column
  objective : List (Nat × Binary64)
  constraints : List Program.Constraint
  deriving DecidableEq

/-- The name of a column. -/
def Program.columnName (j : Nat) : String := s!"x{j}"

/-- The name of a constraint: the row, and the side where a row has two. -/
def Program.Constraint.name (c : Program.Constraint) : String :=
  match c.sense with
  | .equal => s!"r{c.row}"
  | .atLeast => s!"r{c.row}_lo"
  | .atMost => s!"r{c.row}_hi"

namespace Model

/-- One column of a model. -/
structure ColumnData where
  lower : Binary64
  upper : Binary64
  objective : Binary64
  integer : Bool
  deriving DecidableEq

/-- Column vectors side by side. -/
def zipColumns : List Binary64 → List Binary64 → List Binary64 → List Bool → List ColumnData
  | lo :: los, hi :: his, c :: cs, b :: bs => ⟨lo, hi, c, b⟩ :: zipColumns los his cs bs
  | _, _, _, _ => []

/-- **The columns of a model**, one by one. -/
def columnData (m : Model) : List ColumnData :=
  zipColumns m.lower m.upper m.objective m.integer

/-- A bound as a linear program has it: none if it counts as infinite. -/
def bound? (m : Model) (x : Binary64) : Option Binary64 :=
  if m.isInfinite x then none else some x

/-- The nonzero terms of a row. -/
def nonzeroTerms (r : Row) : List (Nat × Binary64) :=
  (r.terms.filter fun t => !t.2.same Binary64.zero).map fun t => (t.1.toInt.toNat, t.2)

/-- Whether a row without nonzeros cannot hold: zero lies outside its bounds. -/
def excludesZero (r : BoundedRow) : Bool :=
  Binary64.zero.lt r.lo || r.hi.lt Binary64.zero

/-- **The constraints of one row** at a position: none without nonzeros, one if the bounds are equal,
else one for each finite side. -/
def rowConstraints (m : Model) (position : Nat) (r : BoundedRow) : List Program.Constraint :=
  let terms := nonzeroTerms r.row
  if terms.isEmpty then []
  else if r.lo.same r.hi then [⟨position, .equal, terms, r.lo⟩]
  else
    (if m.isInfinite r.lo then [] else [⟨position, .atLeast, terms, r.lo⟩]) ++
      (if m.isInfinite r.hi then [] else [⟨position, .atMost, terms, r.hi⟩])

/-- **The linear program of a model.** Every column is in the objective, zero or not. -/
def program (m : Model) : Program where
  columns := m.columnData.map fun c => ⟨m.bound? c.lower, m.bound? c.upper, c.integer⟩
  objective := m.objective.zipIdx.map fun p => (p.2, p.1)
  constraints := m.rows.zipIdx.flatMap fun p => m.rowConstraints p.2 p.1

/-- The bounds of a column are finite as far as the linear program has them. -/
def checkColumn (m : Model) (c : ColumnData) : Except Error Unit :=
  match (m.bound? c.lower).filter fun x => !x.isFinite,
    (m.bound? c.upper).filter fun x => !x.isFinite with
  | some x, _ => .error (.columnBoundNotFinite .lower x)
  | none, some x => .error (.columnBoundNotFinite .upper x)
  | none, none => .ok ()

/-- **The linear program of a model**, refused when a bound is neither finite nor infinite. -/
def translate (m : Model) : Except Error Program := do
  m.columnData.forM m.checkColumn
  return m.program

/-- **The rows that cannot hold**: the positions of rows without nonzeros whose bounds exclude zero. -/
def violated (m : Model) : List Nat :=
  (m.rows.zipIdx.filter fun p => (nonzeroTerms p.1.row).isEmpty && excludesZero p.1).map (·.2)

end Model

end Milp
