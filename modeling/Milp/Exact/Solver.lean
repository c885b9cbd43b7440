import Milp.Exact.Dictionary
import Milp.Solve.Engine

/-!
# The exact engine

An engine that solves linear programs in rational arithmetic. Bounded columns are shifted to start at
zero, integer columns are settled by branching: a column whose value is not whole is rounded down in
one branch and up in the other. The engine looks at nothing but the program, so its answers do not
depend on settings or initial values.
-/

namespace Milp

namespace Binary64

/-- The exact value of a finite number. -/
def toRat (x : Binary64) : Rat := mkRat x.units unitsPerOne

/-- The number nearest to a rational. -/
def ofRat (q : Rat) : Binary64 :=
  ofRatio (decide (q < 0)) (q.num.natAbs * unitsPerOne) q.den

end Binary64

namespace Exact

/-- The range of a column. -/
structure Range where
  lower? : Option Rat
  upper? : Option Rat
  integer : Bool

/-- A program over columns with ranges: `max Σ costs · x` under `rows · x ≤ bounds`. -/
structure Ranged where
  ranges : List Range
  costs : List Rat
  rows : List (List Rat × Rat)

/-! ## Ranges to non-negative variables -/

/-- How a column is made of non-negative variables: an offset, and one or two signs. -/
def Range.parts (r : Range) : Rat × List Rat :=
  match r.lower?, r.upper? with
  | some l, _ => (l, [1])
  | none, some u => (u, [-1])
  | none, none => (0, [1, -1])

/-- Coefficients of the columns as coefficients of the non-negative variables. -/
def spread (ranges : List Range) (coeffs : List Rat) : List Rat :=
  (ranges.zip coeffs).flatMap fun p => p.1.parts.2.map fun s => s * p.2

/-- The value of the coefficients at the offsets. -/
def atOffsets (ranges : List Range) (coeffs : List Rat) : Rat :=
  ((ranges.zip coeffs).map fun p => p.1.parts.1 * p.2).foldl (· + ·) 0

/-- The coefficients that pick out one column. -/
def unitCoeffs (n j : Nat) : List Rat := (List.replicate n 0).set j 1

namespace Ranged

/-- The rows that keep columns with two bounds below the upper one. -/
def upperRows (p : Ranged) : List (List Rat × Rat) :=
  p.ranges.zipIdx.filterMap fun r =>
    match r.1.lower?, r.1.upper? with
    | some _, some u => some (unitCoeffs p.ranges.length r.2, u)
    | _, _ => none

/-- The program in non-negative variables. -/
def standard (p : Ranged) : Standard where
  costs := spread p.ranges p.costs
  rows := (p.upperRows ++ p.rows).map fun r =>
    (spread p.ranges r.1, r.2 - atOffsets p.ranges r.1)

/-- The values of the columns from those of the non-negative variables. -/
def collect : List Range → List Rat → List Rat
  | [], _ => []
  | r :: rs, ys =>
    let (offset, signs) := r.parts
    let own := List.zipWith (· * ·) signs ys
    (own.foldl (· + ·) offset) :: collect rs (ys.drop signs.length)

/-- Solves the program without regard to integrality. -/
def relax (p : Ranged) : Answer :=
  match p.standard.solve with
  | .optimal ys => .optimal (collect p.ranges ys)
  | a => a

/-- The objective at a point. -/
def score (p : Ranged) (point : List Rat) : Rat :=
  (List.zipWith (· * ·) p.costs point).foldl (· + ·) 0

/-- The first integer column whose value is not whole, with the value rounded down. -/
def fractional? (p : Ranged) (point : List Rat) : Option (Nat × Int) :=
  ((p.ranges.zip point).zipIdx.find? fun q => q.1.1.integer && q.1.2.den != 1).map
    fun q => (q.2, q.1.2.floor)

/-- The program with a column kept at or below a bound. -/
def below (p : Ranged) (j : Nat) (n : Int) : Ranged :=
  { p with ranges := p.ranges.modify j fun r => { r with upper? := some (n : Rat) } }

/-- The program with a column kept at or above a bound. -/
def above (p : Ranged) (j : Nat) (n : Int) : Ranged :=
  { p with ranges := p.ranges.modify j fun r => { r with lower? := some (n : Rat) } }

/-- Whether a relaxed point cannot beat the best point so far. -/
def beaten (p : Ranged) (best : Option (List Rat)) (point : List Rat) : Bool :=
  match best with
  | some b => decide (p.score point ≤ p.score b)
  | none => false

/-- How the search ends: with the best point found, or early. -/
inductive Search where
  | best (point : Option (List Rat))
  | unbounded
  | unfinished

/-- **Branching.** Searches the points of a program for one that is better than `best`; `depth` limits
the number of branchings one below the other. -/
def search : Nat → Ranged → Option (List Rat) → Search
  | 0, _, _ => .unfinished
  | depth + 1, p, best =>
    if p.ranges.any fun r =>
        match r.lower?, r.upper? with
        | some l, some u => decide (u < l)
        | _, _ => false
    then .best best
    else
      match p.relax with
      | .infeasible => .best best
      | .unbounded => .unbounded
      | .unfinished => .unfinished
      | .optimal point =>
        if p.beaten best point then .best best
        else
          match p.fractional? point with
          | none => .best (some point)
          | some (j, n) =>
            match search depth (p.below j n) best with
            | .best best' => search depth (p.above j (n + 1)) best'
            | other => other

/-- A depth that suffices for bounded integer columns: each branching narrows a range by one. Columns
without bounds count as if they had a range of ten thousand. -/
def depth (p : Ranged) : Nat :=
  let width := fun (r : Range) =>
    match r.integer, r.lower?, r.upper? with
    | false, _, _ => 0
    | true, some l, some u => (u - l).ceil.toNat + 1
    | true, _, _ => 10000
  (p.ranges.map width).foldl (· + ·) 2

end Ranged

/-! ## The engine -/

/-- A bound of a linear program as a rational; an infinite one is no bound. -/
def finiteBound? : Option Binary64 → Option Rat
  | some x => if x.isFinite then some x.toRat else none
  | none => none

/-- The coefficients of a constraint, one for each of `n` columns. -/
def denseTerms (n : Nat) (terms : List (Nat × Binary64)) : List Rat :=
  terms.foldl (fun cs t => cs.modify t.1 fun c => c + t.2.toRat) (List.replicate n 0)

/-- A constraint as rows with upper bounds. -/
def constraintRows (n : Nat) (c : Program.Constraint) : List (List Rat × Rat) :=
  let coeffs := denseTerms n c.terms
  let most := (coeffs, c.bound.toRat)
  let least := (coeffs.map fun x => -x, -c.bound.toRat)
  match c.sense with
  | .atMost => [most]
  | .atLeast => [least]
  | .equal => [most, least]

/-- A linear program with ranges. -/
def ofProgram (p : Program) : Ranged where
  ranges := p.columns.map fun c => ⟨finiteBound? c.lower?, finiteBound? c.upper?, c.integer⟩
  costs := denseTerms p.columns.length p.objective
  rows := p.constraints.flatMap (constraintRows p.columns.length)

/-- **The exact engine.** -/
def engine : Engine := fun call =>
  let p := ofProgram call.program
  match p.search p.depth none with
  | .best (some point) =>
    .answered (.int EngineStatus.optimal) .absent (point.map fun q => .float (Binary64.ofRat q))
  | .best none => .answered (.int EngineStatus.infeasible) .absent []
  | .unbounded => .answered (.int EngineStatus.unbounded) .absent []
  | .unfinished => .answered (.int EngineStatus.notSolved) .absent []

end Exact

end Milp
