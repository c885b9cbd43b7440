import Milp.Row.Pattern
import Milp.Digest.Blake

/-!
# Signatures of rows

The bytes that a pattern is written as, and the digest of these bytes under which the row cache
files it. The bytes begin with the number of indices, so that the indices and coefficients of a row cannot
be mistaken for one another.
-/

namespace Milp

/-- The key under which a pattern is filed. -/
abbrev Signature := List UInt8

/-- The eight bytes of an index. -/
def indexBytes (i : Int64) : List UInt8 := Digest.bytesOf 8 i.toUInt64.toNat

/-- The eight bytes of a coefficient. -/
def coefficientBytes (x : Binary64) : List UInt8 := Digest.bytesOf 8 x.bits

/-- **The bytes of a pattern**: the number of indices, the indices, the coefficients. -/
def patternBytes (p : Pattern) : List UInt8 :=
  Digest.bytesOf 8 p.count ++ p.indices.entries.flatMap indexBytes ++
    p.coeffs.entries.flatMap coefficientBytes

/-- **The signature of a pattern**: the digest of its bytes. They begin with the length of the indices, which a
single index has not. -/
def signature (p : Pattern) : Except Error Signature :=
  if p.indices.shape.isEmpty then .error (.fault .outOfBounds) else .ok (Digest.digest (patternBytes p))

@[simp] theorem signature_ofRow (r : Row) : signature (.ofRow r) = .ok (Digest.digest (patternBytes (.ofRow r))) :=
  rfl

/-- **How patterns are given their keys.** Every pattern whose indices have a length gets one. -/
structure Signing where
  sign : Pattern → Except Error Signature
  signs : ∀ p : Pattern, p.indices.shape ≠ [] → ∃ key, sign p = .ok key

namespace Signing

/-- Patterns are filed under their signatures. -/
def digest : Signing where
  sign := signature
  signs _ hp := ⟨_, if_neg (mt List.isEmpty_iff.mp hp)⟩

/-- All patterns are filed under one key. -/
def constant (key : Signature) : Signing where
  sign _ := .ok key
  signs _ _ := ⟨key, rfl⟩

end Signing

/-- A signature in hexadecimal. -/
def Signature.hex (s : Signature) : String :=
  String.ofList (s.flatMap fun b => Text.hex 2 b.toNat)

end Milp
