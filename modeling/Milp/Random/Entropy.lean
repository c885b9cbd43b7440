import Milp.Error

/-!
# Entropy from seeds

A seed is an integer of any size, or a list of seeds. Its 32-bit words are mixed into a pool of four,
from which the starting words of a generator are drawn. Every word of the seed touches every word of
the pool.
-/

namespace Milp.Random

/-! ## Words of a seed -/

/-- The 32-bit words of a number, the lowest first; zero is one word. -/
def wordsOf (n : Nat) : List UInt32 :=
  if n < 0x100000000 then [n.toUInt32] else n.toUInt32 :: wordsOf (n / 0x100000000)

/-- The words of an integer, which must not be negative. -/
def intWords (n : Int) : Except Error (List UInt32) :=
  if n < 0 then .error .seedNegative else .ok (wordsOf n.toNat)

/-- The words of a text inside a list: a numeral that begins with a digit, decimal or, behind `0x`,
hexadecimal. -/
def textWords (s : String) : Except Error (List UInt32) :=
  let read : Option Int := match s.toList with
    | '0' :: 'x' :: _ => (Numeral.hexadecimal? s).map fun n => (n : Int)
    | c :: _ => if Numeral.isDigit c then Numeral.integer? s else none
    | [] => none
  match read with
  | some n => intWords n
  | none => .error (.fault .unreadable)

mutual

/-- The words of an item of a seed list. -/
def itemWords : Arg → Except Error (List UInt32)
  | .flag b => intWords (if b then 1 else 0)
  | .int n => intWords n
  | .text s => textWords s
  | .list items => itemsWords items
  | .record fields => do return (← fields.mapM fun f => textWords f.1).flatten
  | _ => .error (.fault .wrongKind)

/-- The words of the items of a list, one after the other. -/
def itemsWords : List Arg → Except Error (List UInt32)
  | [] => .ok []
  | a :: rest => do
    let words ← itemWords a
    return words ++ (← itemsWords rest)

end

/-- **The words of a seed**: an integer, or a list of items. -/
def seedWords : Arg → Except Error (List UInt32)
  | .flag b => itemWords (.flag b)
  | .int n => itemWords (.int n)
  | .list items => itemWords (.list items)
  | _ => .error (.fault .wrongKind)

/-! ## Mixing -/

/-- A word scattered by a running factor; the factor moves on with each use. -/
def scatterWord (step : UInt32) (factor word : UInt32) : UInt32 × UInt32 :=
  let next := factor * step
  let v := (word ^^^ factor) * next
  (v ^^^ (v >>> 16), next)

/-- The step of the factor while words go into the pool. -/
def poolStep : UInt32 := 0x931e8875

/-- Two words made into one. -/
def blend (x y : UInt32) : UInt32 :=
  let r := 0xca01f9dd * x - 0x4973f715 * y
  r ^^^ (r >>> 16)

/-- The pool while it is being filled, with the running factor. -/
structure Pool where
  words : List UInt32
  factor : UInt32

namespace Pool

/-- The number of words of a pool. -/
def width : Nat := 4

/-- Puts the first words of a seed into an empty pool, zeros when there are too few. -/
def fill (seed : List UInt32) : Pool :=
  (List.range width).foldl
    (fun p i =>
      let (w, factor) := scatterWord poolStep p.factor (seed.getD i 0)
      ⟨p.words ++ [w], factor⟩)
    ⟨[], 0x43b0d7e5⟩

/-- Blends a scattered word into the pool's word at a position. -/
def stir (p : Pool) (word : UInt32) (position : Nat) : Pool :=
  let (w, factor) := scatterWord poolStep p.factor word
  ⟨p.words.modify position fun x => blend x w, factor⟩

/-- Lets every word of the pool touch every other one. -/
def mixWithin (p : Pool) : Pool :=
  (List.range width).foldl
    (fun p source =>
      ((List.range width).filter (· != source)).foldl
        (fun p target => p.stir (p.words.getD source 0) target) p)
    p

/-- Lets the remaining words of a seed touch every word of the pool. -/
def absorb (p : Pool) (rest : List UInt32) : Pool :=
  rest.foldl (fun p word => (List.range width).foldl (fun p target => p.stir word target) p) p

/-- **The pool of a seed.** -/
def ofSeed (seed : List UInt32) : Pool := (fill seed).mixWithin.absorb (seed.drop width)

/-- `n` words drawn from the pool, going round it. -/
def draw (p : Pool) (n : Nat) : List UInt32 :=
  ((List.range n).foldl
    (fun (s : List UInt32 × UInt32) i =>
      let (w, factor) := scatterWord 0x58f38ded s.2 (p.words.getD (i % width) 0)
      (s.1 ++ [w], factor))
    ([], 0x8b51f9dd)).1

end Pool

/-- Words in pairs, the low half first. -/
def pairUp : List UInt32 → List UInt64
  | lo :: hi :: rest => (hi.toUInt64 <<< 32 ||| lo.toUInt64) :: pairUp rest
  | _ => []

/-- **The starting words** for a seed: `n` words of 64 bits. -/
def startingWords (seed : List UInt32) (n : Nat) : List UInt64 :=
  pairUp ((Pool.ofSeed seed).draw (2 * n))

end Milp.Random
