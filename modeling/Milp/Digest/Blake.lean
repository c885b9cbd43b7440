/-!
# A 128-bit digest

The BLAKE2b hash of a list of bytes, without a key, cut to sixteen bytes. Messages are taken in blocks
of 128 bytes, each compressed into eight words of state by twelve rounds of mixing.
-/

namespace Milp.Digest

/-- Eight words of state. -/
abbrev State := Vector UInt64 8

/-- Sixteen words: a message block, or the working state of a compression. -/
abbrev Block := Vector UInt64 16

/-- The initial words: the first 64 bits of the fractions of the square roots of the first primes. -/
def initial : State :=
  #v[0x6a09e667f3bcc908, 0xbb67ae8584caa73b, 0x3c6ef372fe94f82b, 0xa54ff53a5f1d36f1,
    0x510e527fade682d1, 0x9b05688c2b3e6c1f, 0x1f83d9abfb41bd6b, 0x5be0cd19137e2179]

/-- The order in which a round takes the words of the block. -/
def schedule : List (Vector (Fin 16) 16) :=
  [#v[0, 1, 2, 3, 4, 5, 6, 7, 8, 9, 10, 11, 12, 13, 14, 15],
   #v[14, 10, 4, 8, 9, 15, 13, 6, 1, 12, 0, 2, 11, 7, 5, 3],
   #v[11, 8, 12, 0, 5, 2, 15, 13, 10, 14, 3, 6, 7, 1, 9, 4],
   #v[7, 9, 3, 1, 13, 12, 11, 14, 2, 6, 5, 10, 4, 0, 15, 8],
   #v[9, 0, 5, 7, 2, 4, 10, 15, 14, 1, 11, 12, 6, 8, 3, 13],
   #v[2, 12, 6, 10, 0, 11, 8, 3, 4, 13, 7, 5, 15, 14, 1, 9],
   #v[12, 5, 1, 15, 14, 13, 4, 10, 0, 7, 6, 3, 9, 2, 8, 11],
   #v[13, 11, 7, 14, 12, 1, 3, 9, 5, 0, 15, 4, 8, 6, 2, 10],
   #v[6, 15, 14, 9, 11, 3, 0, 8, 12, 2, 13, 7, 1, 4, 10, 5],
   #v[10, 2, 8, 4, 7, 6, 1, 5, 15, 11, 9, 14, 3, 12, 13, 0],
   #v[0, 1, 2, 3, 4, 5, 6, 7, 8, 9, 10, 11, 12, 13, 14, 15],
   #v[14, 10, 4, 8, 9, 15, 13, 6, 1, 12, 0, 2, 11, 7, 5, 3]]

/-- Rotation to the right. -/
def rotate (x n : UInt64) : UInt64 := (x >>> n) ||| (x <<< (64 - n))

/-- Mixing four words of the working state with two words of the block. -/
def mix (v : Block) (a b c d : Fin 16) (x y : UInt64) : Block :=
  let v := v.set a (v[a] + v[b] + x)
  let v := v.set d (rotate (v[d] ^^^ v[a]) 32)
  let v := v.set c (v[c] + v[d])
  let v := v.set b (rotate (v[b] ^^^ v[c]) 24)
  let v := v.set a (v[a] + v[b] + y)
  let v := v.set d (rotate (v[d] ^^^ v[a]) 16)
  let v := v.set c (v[c] + v[d])
  v.set b (rotate (v[b] ^^^ v[c]) 63)

/-- One round: four columns, then four diagonals. -/
def round (m : Block) (v : Block) (s : Vector (Fin 16) 16) : Block :=
  let v := mix v 0 4 8 12 m[s[0]] m[s[1]]
  let v := mix v 1 5 9 13 m[s[2]] m[s[3]]
  let v := mix v 2 6 10 14 m[s[4]] m[s[5]]
  let v := mix v 3 7 11 15 m[s[6]] m[s[7]]
  let v := mix v 0 5 10 15 m[s[8]] m[s[9]]
  let v := mix v 1 6 11 12 m[s[10]] m[s[11]]
  let v := mix v 2 7 8 13 m[s[12]] m[s[13]]
  mix v 3 4 9 14 m[s[14]] m[s[15]]

/-- **The compression of one block** after `count` bytes in all; `last` marks the final block. -/
def compress (h : State) (m : Block) (count : Nat) (last : Bool) : State :=
  let v : Block := h ++ initial
  let v := v.set 12 (v[12] ^^^ UInt64.ofNat count)
  let v := v.set 13 (v[13] ^^^ UInt64.ofNat (count / Nat.pow 2 64))
  let v := if last then v.set 14 (v[14] ^^^ 0xffffffffffffffff) else v
  let v := schedule.foldl (round m) v
  Vector.ofFn fun i => h[i] ^^^ v[i.val] ^^^ v[i.val + 8]

/-- The number that bytes stand for, the lowest first. -/
def littleEndian : List UInt8 → Nat
  | [] => 0
  | b :: rest => b.toNat + 256 * littleEndian rest

/-- The `count` lowest bytes of a number, the lowest first. -/
def bytesOf : Nat → Nat → List UInt8
  | 0, _ => []
  | count + 1, n => UInt8.ofNat n :: bytesOf count (n / 256)

/-- Up to 128 bytes as a block, missing bytes being zero. -/
def block (bytes : List UInt8) : Block :=
  Vector.ofFn fun i => UInt64.ofNat (littleEndian ((bytes.drop (8 * i.val)).take 8))

/-- Compresses the blocks of a message of which `count` bytes have been taken before. -/
def absorb (h : State) (count : Nat) (bytes : List UInt8) : State :=
  if hlen : bytes.length ≤ 128 then compress h (block bytes) (count + bytes.length) true
  else absorb (compress h (block (bytes.take 128)) (count + 128) false) (count + 128) (bytes.drop 128)
termination_by bytes.length
decreasing_by
  simp only [List.length_drop]
  omega

/-- The state before the first block, for a digest of sixteen bytes and no key. -/
def start : State := initial.set 0 (initial[0] ^^^ 0x01010010)

/-- **The digest of a message**: sixteen bytes. -/
def digest (message : List UInt8) : List UInt8 :=
  let h := absorb start 0 message
  bytesOf 8 h[0].toNat ++ bytesOf 8 h[1].toNat

end Milp.Digest
