/-!
# Linear programs in exact arithmetic

The simplex method over the rationals. A *dictionary* expresses basic variables and the objective in
terms of nonbasic ones, which are kept at zero; all variables are non-negative. A pivot exchanges two
variables. Entering and leaving variables are the ones with the least number that qualify, so that no
dictionary comes up twice.
-/

namespace Milp.Exact

/-- One line of a dictionary: a basic variable, its value, and its coefficients in the nonbasic
variables. -/
structure Line where
  head : Nat
  constant : Rat
  coeffs : List Rat

/-- **A dictionary**: lines for the basic variables, and the objective, over one list of nonbasic
variables. -/
structure Dictionary where
  nonbasic : List Nat
  lines : List Line
  value : Rat
  costs : List Rat

/-- The entry of a list at a position, zero beyond its end. -/
def entry (xs : List Rat) (j : Nat) : Rat := (xs[j]?).getD 0

/-- Replaces the variable at position `j` in an expression by the expression `(c, ds)`. -/
def substitute (j : Nat) (c : Rat) (ds : List Rat) (constant : Rat) (coeffs : List Rat) :
    Rat × List Rat :=
  let a := entry coeffs j
  (constant + a * c, List.zipWith (fun x d => x + a * d) (coeffs.set j 0) ds)

namespace Dictionary

/-- The line of a basic variable solved for the nonbasic variable at position `j`. -/
def solveFor (line : Line) (j : Nat) : Rat × List Rat :=
  let a := entry line.coeffs j
  (-line.constant / a, (line.coeffs.map fun x => -x / a).set j (1 / a))

/-- **A pivot**: the nonbasic variable at position `j` and the basic variable of a line change
places. -/
def pivot (d : Dictionary) (j : Nat) (leaving : Line) : Dictionary :=
  let entering := (d.nonbasic[j]?).getD 0
  let (c, ds) := solveFor leaving j
  let lines := d.lines.map fun line =>
    if line.head = leaving.head then ⟨entering, c, ds⟩
    else
      let (constant, coeffs) := substitute j c ds line.constant line.coeffs
      ⟨line.head, constant, coeffs⟩
  let (value, costs) := substitute j c ds d.value d.costs
  ⟨d.nonbasic.set j leaving.head, lines, value, costs⟩

/-- The position of the nonbasic variable with the least number whose cost is positive. -/
def entering? (d : Dictionary) : Option Nat :=
  let candidates := (d.nonbasic.zip d.costs).zipIdx.filter fun p => decide (0 < p.1.2)
  (candidates.foldl
    (fun best p =>
      match best with
      | none => some (p.1.1, p.2)
      | some (v, j) => if p.1.1 < v then some (p.1.1, p.2) else some (v, j))
    none).map (·.2)

/-- The line that limits the growth of the variable at position `j` first; of several the one whose
variable has the least number. -/
def leaving? (d : Dictionary) (j : Nat) : Option Line :=
  let limiting := d.lines.filter fun line => decide (entry line.coeffs j < 0)
  let bound := fun (line : Line) => line.constant / -entry line.coeffs j
  limiting.foldl
    (fun best line =>
      match best with
      | none => some line
      | some b =>
        if bound line < bound b ∨ (bound line = bound b ∧ line.head < b.head) then some line
        else some b)
    none

/-- How the improvement of a dictionary ends. -/
inductive End where
  | optimal (d : Dictionary)
  | unbounded
  | unfinished

/-- **Improves a dictionary** until no cost is positive, for at most `fuel` pivots. -/
def improve : Nat → Dictionary → End
  | 0, _ => .unfinished
  | fuel + 1, d =>
    match d.entering? with
    | none => .optimal d
    | some j =>
      match d.leaving? j with
      | none => .unbounded
      | some line => improve fuel (d.pivot j line)

/-- The value of a variable. -/
def valueOf (d : Dictionary) (v : Nat) : Rat :=
  match d.lines.find? fun line => line.head == v with
  | some line => line.constant
  | none => 0

/-- Takes the nonbasic variable at a position out of the dictionary. -/
def dropAt (d : Dictionary) (j : Nat) : Dictionary where
  nonbasic := d.nonbasic.eraseIdx j
  lines := d.lines.map fun line => { line with coeffs := line.coeffs.eraseIdx j }
  value := d.value
  costs := d.costs.eraseIdx j

/-- The same lines with another objective `Σ costs v · v`. -/
def withObjective (d : Dictionary) (cost : Nat → Rat) : Dictionary :=
  let start := d.nonbasic.map cost
  let add := fun (acc : Rat × List Rat) (line : Line) =>
    let c := cost line.head
    (acc.1 + c * line.constant, List.zipWith (fun x a => x + c * a) acc.2 line.coeffs)
  let (value, costs) := d.lines.foldl add (0, start)
  { d with value := value, costs := costs }

end Dictionary

/-! ## Programs with non-negative variables -/

/-- A program `max Σ costs · x` under `rows · x ≤ bounds` and `x ≥ 0`. -/
structure Standard where
  costs : List Rat
  rows : List (List Rat × Rat)

/-- How solving a program ends: with a point, or with the reason why there is no best one. -/
inductive Answer where
  | optimal (point : List Rat)
  | infeasible
  | unbounded
  | unfinished

namespace Standard

/-- More pivots than there are dictionaries. -/
def fuel (p : Standard) : Nat := Nat.pow 2 (p.costs.length + p.rows.length + 2)

/-- The variables of a program are numbered from one, then come the slacks of the rows. -/
def cost (p : Standard) (v : Nat) : Rat := if v = 0 then 0 else entry p.costs (v - 1)

/-- The dictionary in which all slacks are basic. -/
def initial (p : Standard) : Dictionary where
  nonbasic := (List.range p.costs.length).map (· + 1)
  lines := p.rows.zipIdx.map fun r =>
    ⟨p.costs.length + 1 + r.2, r.1.2, r.1.1.map fun a => -a⟩
  value := 0
  costs := p.costs

/-- The initial dictionary with variable zero added to every line, to be driven to zero. -/
def relaxed (p : Standard) : Dictionary :=
  let d := p.initial
  { nonbasic := d.nonbasic ++ [0]
    lines := d.lines.map fun line => { line with coeffs := line.coeffs ++ [1] }
    value := 0
    costs := d.costs.map (fun _ => 0) ++ [-1] }

/-- Takes variable zero out of a dictionary in which its value is zero. -/
def dropZero (d : Dictionary) : Dictionary :=
  let nonbasicZero := fun (d : Dictionary) =>
    match d.nonbasic.findIdx? (· == 0) with
    | some j => d.dropAt j
    | none => d
  match d.lines.find? fun line => line.head == 0 with
  | none => nonbasicZero d
  | some line =>
    match line.coeffs.findIdx? (· != 0) with
    | some j => nonbasicZero (d.pivot j line)
    | none => { d with lines := d.lines.filter fun l => l.head != 0 }

/-- A dictionary with non-negative values, if the program is feasible. -/
def feasible (p : Standard) : Except Answer Dictionary :=
  let worst := p.relaxed.lines.foldl
    (fun (best : Option Line) line =>
      match best with
      | none => some line
      | some b => if line.constant < b.constant then some line else some b)
    none
  match worst with
  | none => .ok p.initial
  | some line =>
    if 0 ≤ line.constant then .ok p.initial
    else
      match Dictionary.improve p.fuel (p.relaxed.pivot p.costs.length line) with
      | .optimal d => if d.value < 0 then .error .infeasible else .ok (dropZero d)
      | _ => .error .unfinished

/-- **Solves a program.** -/
def solve (p : Standard) : Answer :=
  match p.feasible with
  | .error a => a
  | .ok d =>
    match Dictionary.improve p.fuel (d.withObjective p.cost) with
    | .optimal d => .optimal ((List.range p.costs.length).map fun j => d.valueOf (j + 1))
    | .unbounded => .unbounded
    | .unfinished => .unfinished

end Standard

end Milp.Exact
