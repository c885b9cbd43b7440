import Milp.Binary64.Arith

/-!
# Sums

Every addition rounds, so the sum of many numbers depends on the order in which they are added. A `SumTree` is
such an order: the terms stand at its leaves, and each node is one addition.

* `SumTree.pairwise` — the order for a list: up to 128 terms go into eight sums side by side, more terms are
  halved first.
* `SumTree.perm_terms_pairwise` — every term is added exactly once.
* `sum` — the sum of a list in that order.
* `ScalarProduct` — scalar products in any order: whoever computes one chooses it.
-/

namespace Milp

namespace Binary64

/-- **An order of addition.** -/
inductive SumTree where
  | zero
  | term (x : Binary64)
  | plus (s t : SumTree)

namespace SumTree

/-- **The sum**, rounded at every node. -/
def value : SumTree → Binary64
  | zero => Binary64.zero
  | term x => x
  | plus s t => s.value.add t.value

/-- The terms that are added, from left to right. -/
def terms : SumTree → List Binary64
  | zero => []
  | term x => [x]
  | plus s t => s.terms ++ t.terms

/-! ## Orders for lists -/

/-- More terms behind a sum, one after the other. -/
def chain (t : SumTree) (xs : List Binary64) : SumTree := xs.foldl (fun t x => t.plus (.term x)) t

/-- **Eight sums side by side.** Of eight terms each sum takes one, until fewer than eight are left. Then the
sums are added in pairs, and the terms that are left follow. -/
def lanes (t₀ t₁ t₂ t₃ t₄ t₅ t₆ t₇ : SumTree) : List Binary64 → SumTree
  | x₀ :: x₁ :: x₂ :: x₃ :: x₄ :: x₅ :: x₆ :: x₇ :: rest =>
    lanes (t₀.plus (.term x₀)) (t₁.plus (.term x₁)) (t₂.plus (.term x₂)) (t₃.plus (.term x₃))
      (t₄.plus (.term x₄)) (t₅.plus (.term x₅)) (t₆.plus (.term x₆)) (t₇.plus (.term x₇)) rest
  | rest =>
    chain (((t₀.plus t₁).plus (t₂.plus t₃)).plus ((t₄.plus t₅).plus (t₆.plus t₇))) rest

/-- The order for a list that is not halved. -/
def block : List Binary64 → SumTree
  | x₀ :: x₁ :: x₂ :: x₃ :: x₄ :: x₅ :: x₆ :: x₇ :: rest =>
    lanes (.term x₀) (.term x₁) (.term x₂) (.term x₃) (.term x₄) (.term x₅) (.term x₆) (.term x₇) rest
  | xs => zero.chain xs

/-- Longer lists are halved. -/
def blockSize : Nat := 128

/-- **The order for a list.** The first half of a long list has a multiple of eight terms. -/
def pairwise (xs : List Binary64) : SumTree :=
  if xs.length ≤ blockSize then block xs
  else
    let half := xs.length / 2 - xs.length / 2 % 8
    (pairwise (xs.take half)).plus (pairwise (xs.drop half))
termination_by xs.length
decreasing_by all_goals simp only [blockSize, List.length_take, List.length_drop] at *; omega

/-! ## No term is lost -/

theorem terms_chain (t : SumTree) (xs : List Binary64) : (t.chain xs).terms = t.terms ++ xs := by
  induction xs generalizing t with
  | nil => exact (List.append_nil _).symm
  | cons x xs ih => exact (ih (t.plus (.term x))).trans (List.append_assoc ..)

/-- The terms of eight sums side by side are their own and those that are still to come. -/
theorem count_terms_lanes (x : Binary64) (t₀ t₁ t₂ t₃ t₄ t₅ t₆ t₇ : SumTree) (xs : List Binary64) :
    (lanes t₀ t₁ t₂ t₃ t₄ t₅ t₆ t₇ xs).terms.count x =
      t₀.terms.count x + t₁.terms.count x + t₂.terms.count x + t₃.terms.count x + t₄.terms.count x +
        t₅.terms.count x + t₆.terms.count x + t₇.terms.count x + xs.count x := by
  fun_induction lanes t₀ t₁ t₂ t₃ t₄ t₅ t₆ t₇ xs with
  | case1 t₀ t₁ t₂ t₃ t₄ t₅ t₆ t₇ x₀ x₁ x₂ x₃ x₄ x₅ x₆ x₇ rest ih =>
    rw [ih]
    simp only [terms, List.count_append, List.count_cons, List.count_nil]
    omega
  | case2 =>
    simp only [terms_chain, terms, List.count_append]
    omega

theorem perm_terms_block (xs : List Binary64) : (block xs).terms.Perm xs := by
  unfold block
  split
  · rw [List.perm_iff_count]
    intro x
    rw [count_terms_lanes]
    simp only [terms, List.count_cons, List.count_nil]
    omega
  · rw [terms_chain]
    exact .refl _

/-- **Every term is added exactly once.** -/
theorem perm_terms_pairwise (xs : List Binary64) : (pairwise xs).terms.Perm xs := by
  fun_induction pairwise xs with
  | case1 xs _ => exact perm_terms_block xs
  | case2 xs _ half hfirst hlast =>
    have hparts := hfirst.append hlast
    rwa [List.take_append_drop] at hparts

end SumTree

/-- **The sum of a list**, in the order of `SumTree.pairwise`. -/
def sum (xs : List Binary64) : Binary64 := zero.add (SumTree.pairwise xs).value

end Binary64

/-! ## Scalar products -/

/-- **A scalar product** of two lists. In which order products are added, and where they are rounded, depends on the
machine that takes it. -/
abbrev ScalarProduct := List Binary64 → List Binary64 → Binary64

/-- The scalar product term by term from the left. A single product stands for itself, so that only then a negative
zero can come out. -/
def Binary64.dot : ScalarProduct := fun xs ys =>
  match List.zipWith mul xs ys with
  | [p] => p
  | products => products.foldl add zero

end Milp
