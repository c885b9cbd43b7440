import Milp.Random.Entropy
import Milp.Random.Source

/-!
# A permuted congruential generator

A linear congruential generator on 128 bits whose states are folded to 64-bit words: the two halves of
a state are combined and rotated by its top six bits. 32-bit words come in pairs from one 64-bit word,
the high half being kept for the next request.

`Congruential.source` draws numbers and positions from such words. Positions are drawn by widening
multiplication, with words redrawn that would favour some positions.
-/

namespace Milp.Random

/-- **The generator**: state and increment, and a half word kept back. -/
structure Congruential where
  state : BitVec 128
  increment : BitVec 128
  spare : Option UInt32

namespace Congruential

/-- The multiplier of the congruence. -/
def multiplier : BitVec 128 := 0x2360ed051fc65da44385df649fccf645#128

/-- One step of the congruence. -/
def step (g : Congruential) : Congruential :=
  { g with state := g.state * multiplier + g.increment }

/-- A rotation to the right. -/
def rotateRight (x r : UInt64) : UInt64 := (x >>> r) ||| (x <<< (64 - r))

/-- The word that a state is folded to. -/
def fold (state : BitVec 128) : UInt64 :=
  let n := state.toNat
  rotateRight ((n / Nat.pow 2 64).toUInt64 ^^^ n.toUInt64) (n / Nat.pow 2 122).toUInt64

/-- A 64-bit word. -/
def word64 (g : Congruential) : UInt64 × Congruential :=
  let g := g.step
  (fold g.state, g)

/-- A 32-bit word. -/
def word32 (g : Congruential) : UInt32 × Congruential :=
  match g.spare with
  | some w => (w, { g with spare := none })
  | none =>
    let (w, g) := g.word64
    (w.toUInt32, { g with spare := some (w >>> 32).toUInt32 })

/-- Two words as the halves of a state. -/
def joined (hi lo : UInt64) : BitVec 128 := BitVec.ofNat 128 (hi.toNat * Nat.pow 2 64 + lo.toNat)

/-- **The generator of a seed.** -/
def ofSeed (seed : List UInt32) : Congruential :=
  let words := startingWords seed 4
  let word := fun i => words.getD i 0
  let start : Congruential := ⟨0, joined (word 2) (word 3) * 2 + 1, none⟩
  let g := start.step
  { g with state := g.state + joined (word 0) (word 1) }.step

/-- The generator for a seed that has not been read. -/
def start (seed : Arg) : Except Error Congruential := do
  return ofSeed (← seedWords seed)

/-! ## Draws -/

/-- A number from zero up to below one, a multiple of 2⁻⁵³. -/
def unit (g : Congruential) : Binary64 × Congruential :=
  let (w, g) := g.word64
  (Binary64.ofUnits ((w >>> 11).toNat * Nat.pow 2 1021), g)

/-- A number between two numbers. -/
def uniform (lo hi : Binary64) (g : Congruential) : Binary64 × Congruential :=
  let (x, g) := g.unit
  (lo.add ((hi.sub lo).mul x), g)

/-- The high part of the product of a fresh word with `n`; words whose low part is among the first
`2³² mod n` are drawn anew, at most `tries` times. -/
def scaled (n : Nat) : Nat → Congruential → Nat × Congruential
  | 0, g => (0, g)
  | tries + 1, g =>
    let (w, g) := g.word32
    let product := w.toNat * n
    if product % Nat.pow 2 32 < (Nat.pow 2 32 - n) % n then scaled n tries g
    else (product / Nat.pow 2 32, g)

/-- More redraws than ever happen: each one has a chance below one half. -/
def mostTries : Nat := 1000

/-- A number below `n`, for `n` below 2³². Of a single number none is drawn. -/
def below (n : Nat) (g : Congruential) : Nat × Congruential :=
  if n ≤ 1 then (0, g) else scaled n mostTries g

/-- Different numbers, one for each upper limit of a list: the number drawn up to the limit, or the
limit itself if that number is taken. -/
def distinct : List Nat → List Nat → Congruential → List Nat × Congruential
  | [], chosen, g => (chosen, g)
  | limit :: limits, chosen, g =>
    let (v, g) := below (limit + 1) g
    distinct limits (chosen ++ [if chosen.contains v then limit else v]) g

/-- A shuffle from a place downwards: at each of so many places, the item changes places with one that does not
come after it. -/
def shuffle : Nat → Nat → Array Nat → Congruential → Array Nat × Congruential
  | 0, _, xs, g => (xs, g)
  | steps + 1, place, xs, g =>
    let (j, g) := below (place + 1) g
    shuffle steps (place - 1) (xs.swapIfInBounds place j) g

/-- Different numbers below `n`, drawn one by one and shuffled. -/
def chooseFew (n k : Nat) (g : Congruential) : List Nat × Congruential :=
  let (chosen, g) := distinct ((List.range k).map fun i => n - k + i) [] g
  let (chosen, g) := shuffle (k - 1) (k - 1) chosen.toArray g
  (chosen.toList, g)

/-- The last ones of all numbers below `n`, after the places that they take up have been shuffled. -/
def chooseMany (n k : Nat) (g : Congruential) : List Nat × Congruential :=
  let (all, g) := shuffle (n - max (n - k) 1) (n - 1) (Array.range n) g
  (all.toList.drop (n - k), g)

/-- **`k` different numbers below `n`.** All numbers are shuffled when there are more than ten thousand of them and
more than a fiftieth is asked for. -/
def choose (n k : Nat) (g : Congruential) : List Nat × Congruential :=
  if 10000 < n ∧ n / 50 < k then chooseMany n k g else chooseFew n k g

/-- **The generator as a source of draws.** -/
def source : Source Congruential where
  uniform := uniform
  unit := unit
  choose := choose
  below := below

end Congruential

end Milp.Random
