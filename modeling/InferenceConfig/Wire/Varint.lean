import InferenceConfig.Byte

/-!
# Variable-Length Integers

A natural number is written seven bits at a time, the lowest first, and every byte but the
last has its top bit set. A reader accepts ten bytes at most and only values below `2 ^ 64`,
so the tenth byte may only be 0 or 1; it does not mind a spelling that is longer than
needed.

## Main definitions

* `Varint.encode` — the shortest spelling of a number;
* `Varint.read?` — the number at the start of the bytes and what follows it.

## Main statements

* `Varint.read?_encode` — reading gives back what was written;
* `Varint.length_encode` — `Varint.size` is the length of the shortest spelling.
-/

namespace InferenceConfig

namespace Varint

/-- The shortest spelling of a number. -/
def encode (n : Nat) : List UInt8 :=
  if n < 128 then [n.toUInt8] else (n % 128 + 128).toUInt8 :: encode (n / 128)
termination_by n
decreasing_by omega

/-- The number of bytes of the shortest spelling. -/
def size (n : Nat) : Nat :=
  if n < 128 then 1 else size (n / 128) + 1
termination_by n
decreasing_by omega

/-- Reads a number from at most `budget` bytes, of which the last must be below 2. -/
def readWithin? : (budget : Nat) → (bytes : List UInt8) → Option (Nat × List UInt8)
  | 0, _ => none
  | _ + 1, [] => none
  | budget + 1, byte :: bytes =>
    if byte.toNat < 128 then
      if budget = 0 ∧ 2 ≤ byte.toNat then none else some (byte.toNat, bytes)
    else
      match readWithin? budget bytes with
      | none => none
      | some (high, rest) => some (byte.toNat - 128 + 128 * high, rest)

/-- The number at the start of the bytes, spelled in ten bytes or fewer, and what follows
it. -/
def read? (bytes : List UInt8) : Option (Nat × List UInt8) :=
  readWithin? 10 bytes

/-- A number has a byte at least, so reading it leaves fewer bytes. -/
theorem length_of_readWithin? {budget n : Nat} {bytes rest : List UInt8}
    (h : readWithin? budget bytes = some (n, rest)) : rest.length < bytes.length := by
  induction budget generalizing n bytes with
  | zero => simp [readWithin?] at h
  | succ budget ih =>
    cases bytes with
    | nil => simp [readWithin?] at h
    | cons byte bytes =>
      simp only [readWithin?] at h
      split at h
      · split at h
        · simp at h
        · simp only [Option.some.injEq, Prod.mk.injEq] at h
          simp [h.2]
      · split at h
        · simp at h
        · next heq =>
          simp only [Option.some.injEq, Prod.mk.injEq] at h
          obtain ⟨_, rfl⟩ := h
          exact Nat.lt_succ_of_lt (ih heq)

/-- A number takes at least one byte. -/
theorem length_of_read? {n : Nat} {bytes rest : List UInt8}
    (h : read? bytes = some (n, rest)) : rest.length < bytes.length :=
  length_of_readWithin? h

/-! ### Reading what was written -/

/-- A spelling of `budget + 1` bytes can hold `budget` groups of seven bits and one more
bit. -/
theorem readWithin?_encode {budget n : Nat} (rest : List UInt8)
    (h : n < 2 * Nat.pow 128 budget) :
    readWithin? (budget + 1) (encode n ++ rest) = some (n, rest) := by
  induction budget generalizing n with
  | zero =>
    have small : n < 2 := h
    rw [encode, if_pos (by omega)]
    simp [readWithin?, Nat.mod_eq_of_lt (show n < 256 by omega)]
    omega
  | succ budget ih =>
    have step : Nat.pow 128 (budget + 1) = Nat.pow 128 budget * 128 := rfl
    rw [encode]
    split
    · simp [readWithin?, toNat_toUInt8 (show n < 256 by omega), *]
    · have byte := toNat_toUInt8 (show n % 128 + 128 < 256 by omega)
      have high : n / 128 < 2 * Nat.pow 128 budget := by
        rw [step] at h
        omega
      simp only [List.cons_append, readWithin?, byte, ih high]
      simp only [show ¬(n % 128 + 128 < 128) by omega, if_false, Option.some.injEq,
        Prod.mk.injEq, and_true]
      omega

/-- Reading the shortest spelling of a number of at most 64 bits gives the number back and
leaves what follows. -/
theorem read?_encode {n : Nat} (rest : List UInt8) (h : n < 0x10000000000000000) :
    read? (encode n ++ rest) = some (n, rest) :=
  readWithin?_encode rest h

/-- The announced size is the length of the shortest spelling. -/
theorem length_encode (n : Nat) : (encode n).length = size n := by
  fun_induction encode n with
  | case1 n h => rw [size, if_pos h]; rfl
  | case2 n h ih => rw [size, if_neg h, List.length_cons, ih]

end Varint

end InferenceConfig
