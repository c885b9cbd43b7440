import Milp.Proofs.Binary64.Words
import Milp.Row.Signature

/-!
# Bytes of rows

The bytes that a row is filed under can be read back: numbers of a fixed width are told apart by their bytes, and the
number of indices in front says where the coefficients begin. So two rows have the same signature only if they are
one row or the digest maps different messages to one value.

* `littleEndian_bytesOf` — numbers are read back from their bytes.
* `flatMap_injective` — lists of items of one width are told apart by their joined bytes.
* `Digest.Collide` — different messages with one digest.
* `patternBytes_identify` — what the bytes and the signatures of two rows say about them.
-/

namespace Milp

/-! ## Bytes of numbers -/

namespace Digest

@[simp] theorem length_bytesOf (width n : ℕ) : (bytesOf width n).length = width := by
  induction width generalizing n with
  | zero => rfl
  | succ width ih => rw [bytesOf, List.length_cons, ih]

/-- **Numbers are read back from their bytes**, if these are enough. -/
theorem littleEndian_bytesOf {width n : ℕ} (hn : n < 256 ^ width) : littleEndian (bytesOf width n) = n := by
  induction width generalizing n with
  | zero => exact (Nat.lt_one_iff.mp hn).symm
  | succ width ih =>
    have hrest : n / 256 < 256 ^ width := Nat.div_lt_of_lt_mul (by rwa [Nat.mul_comm, ← Nat.pow_succ])
    have hbyte : (UInt8.ofNat n).toNat = n % 256 := UInt8.toNat_ofNat'
    rw [bytesOf, littleEndian, ih hrest, hbyte]
    exact Nat.mod_add_div n 256

theorem bytesOf_inj (width : ℕ) {m n : ℕ} (hm : m < 256 ^ width) (hn : n < 256 ^ width) :
    bytesOf width m = bytesOf width n ↔ m = n := by
  constructor
  · intro h
    rw [← littleEndian_bytesOf hm, h, littleEndian_bytesOf hn]
  · exact congrArg _

/-- **Different messages with one digest.** -/
structure Collide (a b : List UInt8) : Prop where
  ne : a ≠ b
  digest_eq : digest a = digest b

end Digest

/-- Joined bytes are as many as the items times their width. -/
theorem length_flatMap_of_width {α : Type} {f : α → List UInt8} {width : ℕ} (hwidth : ∀ a, (f a).length = width)
    (xs : List α) : (xs.flatMap f).length = xs.length * width := by
  rw [List.length_flatMap, List.map_congr_left fun a _ => hwidth a, List.map_const', List.sum_replicate, smul_eq_mul]

/-- **Lists of items of one width are told apart by their joined bytes**, if the items are by theirs. -/
theorem flatMap_injective {α : Type} {f : α → List UInt8} {width : ℕ} (hpos : 0 < width)
    (hwidth : ∀ a, (f a).length = width) (hf : Function.Injective f) :
    Function.Injective fun xs : List α => xs.flatMap f := by
  intro xs ys h
  dsimp only at h
  have hlength : xs.length = ys.length := by
    have hbytes := congrArg List.length h
    rw [length_flatMap_of_width hwidth, length_flatMap_of_width hwidth] at hbytes
    exact Nat.eq_of_mul_eq_mul_right hpos hbytes
  induction xs generalizing ys with
  | nil => exact (List.length_eq_zero_iff.mp hlength.symm).symm
  | cons x xs ih =>
    obtain ⟨y, ys, rfl⟩ := List.exists_cons_of_length_eq_add_one hlength.symm
    rw [List.flatMap_cons, List.flatMap_cons] at h
    obtain ⟨hitem, hrest⟩ := List.append_inj h ((hwidth x).trans (hwidth y).symm)
    rw [hf hitem, ih hrest (Nat.succ.inj hlength)]

/-! ## Bytes of indices and coefficients -/

theorem length_indexBytes (i : Int64) : (indexBytes i).length = 8 := Digest.length_bytesOf 8 _

theorem length_coefficientBytes (x : Binary64) : (coefficientBytes x).length = 8 := Digest.length_bytesOf 8 _

/-- Indices are told apart by their bytes, negative ones as well. -/
theorem indexBytes_injective : Function.Injective indexBytes := by
  intro i j h
  have hi : i.toUInt64.toNat < 2 ^ 64 := i.toUInt64.toNat_lt
  have hj : j.toUInt64.toNat < 2 ^ 64 := j.toUInt64.toNat_lt
  have hwords := (Digest.bytesOf_inj 8 (by omega) (by omega)).mp h
  obtain ⟨u⟩ := i
  obtain ⟨v⟩ := j
  exact congrArg Int64.ofUInt64 (UInt64.toNat_inj.mp hwords)

/-- Coefficients are told apart by their bytes, zeros by their signs. -/
theorem coefficientBytes_injective : Function.Injective coefficientBytes := by
  intro x y h
  have hx := x.bits_lt
  have hy := y.bits_lt
  exact Binary64.bits_injective ((Digest.bytesOf_inj 8 (by omega) (by omega)).mp h)

/-! ## Bytes of rows -/

/-- **Rows are told apart by their bytes.** The number of indices says how many of the bytes behind it belong to
indices. -/
theorem eq_of_patternBytes {r t : Row} (hr : r.size < 2 ^ 64) (ht : t.size < 2 ^ 64)
    (h : patternBytes (.ofRow r) = patternBytes (.ofRow t)) : r = t := by
  have hparts : Digest.bytesOf 8 r.size ++ (r.indices.flatMap indexBytes ++ r.coeffs.flatMap coefficientBytes) =
      Digest.bytesOf 8 t.size ++ (t.indices.flatMap indexBytes ++ t.coeffs.flatMap coefficientBytes) := by
    rw [← List.append_assoc, ← List.append_assoc]
    exact h
  obtain ⟨hcount, hentries⟩ := List.append_inj hparts (by rw [Digest.length_bytesOf, Digest.length_bytesOf])
  have hsize : r.size = t.size := (Digest.bytesOf_inj 8 (by omega) (by omega)).mp hcount
  obtain ⟨hindices, hcoeffs⟩ := List.append_inj hentries (by
    rw [length_flatMap_of_width length_indexBytes, length_flatMap_of_width length_indexBytes]
    exact congrArg (· * 8) hsize)
  exact Row.ext (flatMap_injective (by decide) length_indexBytes indexBytes_injective hindices)
    (flatMap_injective (by decide) length_coefficientBytes coefficientBytes_injective hcoeffs)

/-- **The bytes of a row identify it.** The bytes of two rows, whose coefficients may be more or fewer than their
indices, are the same if and only if the indices are the same and the coefficients have the same bits. So if two
different rows have one signature, the digest has a collision at their bytes. -/
theorem patternBytes_identify {r t : Row} (hr : r.size < 2 ^ 64) (ht : t.size < 2 ^ 64) :
    (patternBytes (.ofRow r) = patternBytes (.ofRow t) ↔
      r.indices = t.indices ∧ r.coeffs.map Binary64.bits = t.coeffs.map Binary64.bits) ∧
    ((∃ key, signature (.ofRow r) = .ok key ∧ signature (.ofRow t) = .ok key) ↔
      r = t ∨ Digest.Collide (patternBytes (.ofRow r)) (patternBytes (.ofRow t))) := by
  have hrow : patternBytes (.ofRow r) = patternBytes (.ofRow t) → r = t := eq_of_patternBytes hr ht
  refine ⟨⟨?_, ?_⟩, ⟨?_, ?_⟩⟩
  · intro h
    rw [hrow h]
    exact ⟨rfl, rfl⟩
  · rintro ⟨hindices, hbits⟩
    obtain rfl : r = t := Row.ext hindices (Binary64.bits_injective.list_map hbits)
    rfl
  · rintro ⟨key, hr, ht⟩
    have hdigest := Except.ok.inj (hr.trans ht.symm)
    by_cases heq : r = t
    · exact .inl heq
    · exact .inr ⟨fun hbytes => heq (hrow hbytes), hdigest⟩
  · rintro (rfl | hcollide)
    · exact ⟨_, rfl, rfl⟩
    · exact ⟨_, rfl, congrArg Except.ok hcollide.digest_eq.symm⟩

/-- Zeros in one row of one index and two coefficients, and in one row of two indices and one coefficient: behind the
number of indices there are the same bytes, but not in front. And the two zeros, of which the bytes show the sign. -/
theorem patternBytes_identify_of_zeros :
    let zero := Binary64.zero
    let r : Row := .ofArrays [0] [zero, zero]
    let t : Row := .ofArrays [0, 0] [zero]
    let u : Row := .ofArrays [0] [zero, zero.neg]
    (patternBytes (.ofRow r)).drop 8 = (patternBytes (.ofRow t)).drop 8 ∧
      patternBytes (.ofRow r) ≠ patternBytes (.ofRow t) ∧ patternBytes (.ofRow r) ≠ patternBytes (.ofRow u) := by
  intro zero r t u
  refine ⟨by decide +kernel, fun h => ?_, fun h => ?_⟩
  · have hsame := (patternBytes_identify (r := r) (t := t) (by decide) (by decide)).1.mp h
    exact absurd hsame.1 (by decide)
  · have hsame := (patternBytes_identify (r := r) (t := u) (by decide) (by decide)).1.mp h
    exact absurd hsame.2 (by decide +kernel)

end Milp
