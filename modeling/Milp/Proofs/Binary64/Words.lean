import Milp.Proofs.Binary64.Whole

/-!
# Stored words

The word of a number has room for everything about it: a size below 2⁵² is its own word, a larger one is a
significand of 53 bits, of which the first is always set, and a number of places by which it is shifted. So numbers
with one word are one number; zeros with different signs have different words.

* `Word` — how the word of a size is made up: `word_wordOf` and `Word.unique`.
* `Stored` — the sign bit and the other bits of a number.
* `bits_lt` and `bits_injective` — words have 64 bits, and tell numbers apart.
-/

namespace Milp.Binary64

/-! ## Sizes -/

/-- **`Word n w`** — `w` is the word of a size of `n` units, without a sign: the size itself, or the bits behind the
first bit of a significand, behind the number of places by which it is shifted. -/
inductive Word : ℕ → ℕ → Prop where
  | small (n : ℕ) (hn : n < 2 ^ 52) : Word n n
  | shifted (fraction shift : ℕ) (hfraction : fraction < 2 ^ 52) (hshift : shift ≤ 2045) :
      Word ((2 ^ 52 + fraction) * 2 ^ shift) ((shift + 1) * 2 ^ 52 + fraction)

/-- The words of sizes are below that of infinity. -/
theorem Word.lt {n w : ℕ} (h : Word n w) : w < 0x7ff0000000000000 := by
  cases h with
  | small n hn => omega
  | shifted fraction shift hfraction hshift => omega

/-- **A word says which size it is of.** -/
theorem Word.unique {m n w : ℕ} (hm : Word m w) (hn : Word n w) : m = n := by
  cases hm with
  | small m hm =>
    generalize hw : m = w at hn
    cases hn with
    | small n hn => rfl
    | shifted fraction shift hfraction hshift => omega
  | shifted fraction shift hfraction hshift =>
    generalize hw : (shift + 1) * 2 ^ 52 + fraction = w at hn
    cases hn with
    | small n hn => omega
    | shifted fraction' shift' hfraction' hshift' =>
      obtain rfl : shift = shift' := by omega
      obtain rfl : fraction = fraction' := by omega
      rfl

/-- The word of a size in units. -/
def wordOf (n : ℕ) : ℕ :=
  if n < Nat.pow 2 52 then n else (n.log2 - 52) * Nat.pow 2 52 + n / Nat.pow 2 (n.log2 - 52)

theorem bits_finite (s : Bool) (m : Size) :
    (finite s m).bits = (if s then Nat.pow 2 63 else 0) + wordOf m.units := rfl

/-- **Every size of the format has a word.** -/
theorem word_wordOf {n : ℕ} (hn : Representable n) : Word n (wordOf n) := by
  unfold wordOf
  split
  · rename_i hsmall
    exact .small n hsmall
  rename_i hlarge
  have hlarge : 2 ^ 52 ≤ n := not_lt.mp hlarge
  have hne : n ≠ 0 := by omega
  have hlog : 52 ≤ n.log2 := (Nat.le_log2 hne).mpr hlarge
  obtain ⟨l, hl, hlimit⟩ := exists_sizeLimit_eq
  have hshift : n.log2 < l := (Nat.log2_lt hne).mpr (hlimit ▸ hn.1)
  -- the significand is what is left without the places by which it is shifted
  obtain ⟨k, hk⟩ := hn.2
  rw [Nat.pow_eq] at hk
  generalize hs : n.log2 - 52 = s at hk
  have hlower : 2 ^ 52 * 2 ^ s ≤ k * 2 ^ s := by
    rw [← pow_add, Nat.mul_comm k, ← hk]
    exact (Nat.le_log2 hne).mp (by omega)
  have hupper : k * 2 ^ s < 2 ^ 53 * 2 ^ s := by
    rw [← pow_add, Nat.mul_comm k, ← hk]
    exact (Nat.log2_lt hne).mp (by omega)
  have hpos : 0 < 2 ^ s := Nat.two_pow_pos s
  have hklower : 2 ^ 52 ≤ k := Nat.le_of_mul_le_mul_right hlower hpos
  have hkupper : k < 2 ^ 53 := Nat.lt_of_mul_lt_mul_right hupper
  have hquotient : n / Nat.pow 2 s = k := by
    rw [Nat.pow_eq, hk]
    exact Nat.mul_div_cancel_left k hpos
  rw [hquotient]
  obtain ⟨fraction, rfl⟩ := Nat.exists_eq_add_of_le hklower
  have hword : s * Nat.pow 2 52 + (2 ^ 52 + fraction) = (s + 1) * 2 ^ 52 + fraction := by
    rw [Nat.pow_eq]
    ring
  rw [hword, hk, Nat.mul_comm (2 ^ s)]
  exact .shifted fraction s (by omega) (by omega)

/-! ## Numbers -/

/-- **`Stored x s w`** — the word of `x` is the sign bit `s` in front of the 63 bits `w`. The infinities come behind
all sizes, and NaN behind these. -/
inductive Stored : Binary64 → Bool → ℕ → Prop where
  | nan : Stored nan false 0x7ff8000000000000
  | infinite (s : Bool) : Stored (infinite s) s 0x7ff0000000000000
  | finite (s : Bool) {m : Size} {w : ℕ} (hw : Word m.units w) : Stored (finite s m) s w

theorem exists_stored (x : Binary64) : ∃ s w, Stored x s w ∧ x.bits = (if s then 2 ^ 63 else 0) + w := by
  cases x with
  | nan => exact ⟨_, _, .nan, rfl⟩
  | infinite s => exact ⟨_, _, .infinite s, rfl⟩
  | finite s m => exact ⟨_, _, .finite s (word_wordOf m.representable), bits_finite s m⟩

variable {x y : Binary64} {s : Bool} {w : ℕ}

theorem Stored.lt (h : Stored x s w) : w < 2 ^ 63 := by
  cases h with
  | nan | infinite => decide
  | finite s hw =>
    have := hw.lt
    omega

/-- **Sign bit and the other bits say which number it is.** -/
theorem Stored.unique (hx : Stored x s w) (hy : Stored y s w) : x = y := by
  cases hx with
  | nan =>
    cases hy with
    | nan => rfl
    | finite _ hw => exact absurd hw.lt (by decide)
  | infinite =>
    cases hy with
    | infinite => rfl
    | finite _ hw => exact absurd hw.lt (by decide)
  | @finite _ m _ hm =>
    cases hy with
    | nan | infinite => exact absurd hm.lt (by decide)
    | @finite _ n _ hn =>
      obtain ⟨m, hmsize⟩ := m
      obtain ⟨n, hnsize⟩ := n
      obtain rfl : m = n := hm.unique hn
      rfl

/-- **Words have 64 bits.** -/
theorem bits_lt (x : Binary64) : x.bits < 2 ^ 64 := by
  obtain ⟨s, w, hstored, hbits⟩ := exists_stored x
  have := hstored.lt
  rw [hbits]
  cases s
  · simp only [Bool.false_eq_true, if_false]
    omega
  · simp only [if_true]
    omega

/-- **Numbers are told apart by their words**, zeros by their signs. -/
theorem bits_injective : Function.Injective bits := by
  intro x y h
  obtain ⟨s, v, hx, hxbits⟩ := exists_stored x
  obtain ⟨t, w, hy, hybits⟩ := exists_stored y
  have hv := hx.lt
  have hw := hy.lt
  rw [hxbits, hybits] at h
  obtain ⟨rfl, rfl⟩ : s = t ∧ v = w := by
    cases s <;> cases t <;> simp only [Bool.false_eq_true, if_true, if_false] at h <;> simp <;> omega
  exact hx.unique hy

end Milp.Binary64
