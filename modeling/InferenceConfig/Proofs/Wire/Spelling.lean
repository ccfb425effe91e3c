import InferenceConfig.Wire.Key

/-!
# Spellings of Integers and Keys

A variable-length integer has many spellings, and the readers accept all of them up to ten
bytes. This module says what a spelling is without reading it: every byte but the last has
its top bit set, and the other seven bits of the bytes are the digits of the number to the
base 128, the lowest first. A key is spelled by spelling its value.

The readers are then characterised in one equivalence each. It says what they accept, what
they return, and that they never look behind what they read.

## Main definitions

* `Varint.SpelledWithin`, `Varint.IsSpelling` — the spellings of a number;
* `Varint.IsMinimal` — the shortest of them;
* `Key.IsSpelling` — the spellings of a key.

## Main results

* `Varint.read?_eq_some_iff` and `Key.read_eq_ok_iff` — the readers accept exactly the
  spellings, whatever follows;
* `Varint.isSpelling_encode` and `Key.isSpelling_encode` — what is written is a spelling;
* `Varint.IsSpelling.eq_encode_or_lt`, `Varint.IsSpelling.isMinimal_iff` — what is written is
  the only spelling of minimal length;
* `Varint.read?_cut_eq_none` — what is written is not read if it is cut off;
* `Varint.read?_encode_eq_none` — a number of more than 64 bits is written as bytes that no
  reader accepts.
-/

namespace InferenceConfig

namespace Varint

/-- The number whose digits to the base 128 are the lower seven bits of the bytes, the
lowest digit first. -/
def valueOf : List UInt8 → Nat
  | [] => 0
  | byte :: bytes => byte.toNat % 128 + 128 * valueOf bytes

/-- The bytes spell the number `n` in at most `budget` bytes. A spelling that uses the whole
budget may end in 0 or 1 only. -/
structure SpelledWithin (budget : Nat) (bytes : List UInt8) (n : Nat) : Prop where
  /-- Every byte but the last announces another one. -/
  continues : ∀ byte ∈ bytes.dropLast, 128 ≤ byte.toNat
  /-- There is a last byte, and it announces none. -/
  stops : ∃ last, bytes.getLast? = some last ∧ last.toNat < 128 ∧
    (bytes.length = budget → last.toNat < 2)
  /-- The budget suffices. -/
  length_le : bytes.length ≤ budget
  /-- The bytes have the digits of the number. -/
  valueOf_eq : valueOf bytes = n

/-- The bytes spell the number `n`: in ten bytes at most, of which the tenth is 0 or 1. -/
def IsSpelling (bytes : List UInt8) (n : Nat) : Prop :=
  SpelledWithin 10 bytes n

/-! ### One byte of a spelling -/

/-- A number is spelled with a byte at least. -/
theorem SpelledWithin.ne_nil {budget n : Nat} {bytes : List UInt8}
    (h : SpelledWithin budget bytes n) : bytes ≠ [] := by
  rintro rfl
  obtain ⟨last, hlast, -⟩ := h.stops
  simp at hlast

/-- Nothing is spelled with no bytes. -/
theorem not_spelledWithin_zero {n : Nat} {bytes : List UInt8} : ¬ SpelledWithin 0 bytes n :=
  fun h => h.ne_nil (List.eq_nil_of_length_eq_zero (Nat.le_zero.mp h.length_le))

/-- A byte below 128 is a whole spelling. -/
theorem spelledWithin_cons_of_lt {budget n : Nat} {byte : UInt8} {bytes : List UInt8}
    (hbyte : byte.toNat < 128) :
    SpelledWithin (budget + 1) (byte :: bytes) n ↔
      bytes = [] ∧ n = byte.toNat ∧ (budget = 0 → byte.toNat < 2) := by
  constructor
  · intro h
    cases bytes with
    | nil =>
        obtain ⟨last, hlast, -, hfull⟩ := h.stops
        obtain rfl : byte = last := by simpa using hlast
        have hvalue := h.valueOf_eq
        simp only [valueOf] at hvalue
        refine ⟨rfl, by omega, fun hbudget => hfull ?_⟩
        rw [hbudget]
        rfl
    | cons next bytes =>
        have := h.continues byte (by simp)
        omega
  · rintro ⟨rfl, rfl, hfull⟩
    refine ⟨by simp, ⟨byte, rfl, hbyte, fun hlength => hfull ?_⟩, by simp, ?_⟩
    · simpa using hlength.symm
    · simp only [valueOf]
      omega

/-- A byte below 128 spells its value. -/
theorem isSpelling_singleton {byte : UInt8} (h : byte.toNat < 128) :
    IsSpelling [byte] byte.toNat :=
  (spelledWithin_cons_of_lt h).mpr ⟨rfl, rfl, fun hbudget => absurd hbudget (by decide)⟩

/-- A byte from 128 on is followed by the spelling of the higher digits. -/
theorem spelledWithin_cons_of_le {budget n : Nat} {byte : UInt8} {bytes : List UInt8}
    (hbyte : 128 ≤ byte.toNat) :
    SpelledWithin (budget + 1) (byte :: bytes) n ↔
      ∃ high, SpelledWithin budget bytes high ∧ n = byte.toNat - 128 + 128 * high := by
  have hbits : byte.toNat % 128 = byte.toNat - 128 := by
    have := byte.toNat_lt
    omega
  constructor
  · intro h
    obtain ⟨last, hlast, hsmall, hfull⟩ := h.stops
    cases bytes with
    | nil =>
        obtain rfl : byte = last := by simpa using hlast
        omega
    | cons next bytes =>
        rw [List.getLast?_cons_cons] at hlast
        refine ⟨valueOf (next :: bytes), ⟨fun b hb => h.continues b ?_,
          ⟨last, hlast, hsmall, fun hlength => hfull ?_⟩, ?_, rfl⟩, ?_⟩
        · rw [List.dropLast_cons_cons]
          exact List.mem_cons_of_mem _ hb
        · rw [List.length_cons, hlength]
        · have := h.length_le
          rw [List.length_cons] at this
          omega
        · rw [← h.valueOf_eq, valueOf, hbits]
  · rintro ⟨high, h, rfl⟩
    obtain ⟨last, hlast, hsmall, hfull⟩ := h.stops
    obtain ⟨next, bytes, rfl⟩ := List.exists_cons_of_ne_nil h.ne_nil
    refine ⟨fun b hb => ?_, ⟨last, by rw [List.getLast?_cons_cons, hlast], hsmall,
      fun hlength => hfull ?_⟩, ?_, ?_⟩
    · rw [List.dropLast_cons_cons, List.mem_cons] at hb
      rcases hb with rfl | hb
      · exact hbyte
      · exact h.continues b hb
    · rw [List.length_cons] at hlength
      omega
    · have := h.length_le
      rw [List.length_cons]
      omega
    · rw [valueOf, hbits, h.valueOf_eq]

/-- A spelling is a byte below 128, or a byte from 128 on and a spelling of the higher digits. -/
theorem SpelledWithin.byte_cases {budget n : Nat} {bytes : List UInt8}
    (h : SpelledWithin (budget + 1) bytes n) :
    (∃ byte : UInt8, byte.toNat < 128 ∧ (budget = 0 → byte.toNat < 2) ∧
        bytes = [byte] ∧ n = byte.toNat) ∨
      ∃ (byte : UInt8) (tail : List UInt8) (high : Nat), 128 ≤ byte.toNat ∧
        SpelledWithin budget tail high ∧ bytes = byte :: tail ∧
        n = byte.toNat - 128 + 128 * high := by
  obtain ⟨byte, tail, rfl⟩ := List.exists_cons_of_ne_nil h.ne_nil
  by_cases hbyte : byte.toNat < 128
  · obtain ⟨rfl, rfl, hfull⟩ := (spelledWithin_cons_of_lt hbyte).mp h
    exact .inl ⟨byte, hbyte, hfull, rfl, rfl⟩
  · have hbyte : 128 ≤ byte.toNat := Nat.le_of_not_lt hbyte
    obtain ⟨high, hhigh, rfl⟩ := (spelledWithin_cons_of_le hbyte).mp h
    exact .inr ⟨byte, tail, high, hbyte, hhigh, rfl, rfl⟩

/-! ### Reading -/

/-- Within a budget, the reader accepts exactly the spellings, whatever follows. Induction
on the budget: a byte below 128 ends the spelling, another one leaves a smaller budget. -/
theorem readWithin?_eq_some_iff {budget n : Nat} {bytes rest : List UInt8} :
    readWithin? budget bytes = some (n, rest) ↔
      ∃ spelling, bytes = spelling ++ rest ∧ SpelledWithin budget spelling n := by
  induction budget generalizing bytes n with
  | zero =>
      constructor
      · intro h
        simp [readWithin?] at h
      · rintro ⟨spelling, -, h⟩
        exact absurd h not_spelledWithin_zero
  | succ budget ih =>
      cases bytes with
      | nil =>
          constructor
          · intro h
            simp [readWithin?] at h
          · rintro ⟨spelling, happend, h⟩
            exact absurd (List.append_eq_nil_iff.mp happend.symm).1 h.ne_nil
      | cons byte bytes =>
          rw [readWithin?]
          -- A byte below 128 ends the number; behind any other byte stands its higher part.
          by_cases hbyte : byte.toNat < 128
          · rw [if_pos hbyte]
            constructor
            · intro h
              split at h
              · simp at h
              · next hfull =>
                  simp only [Option.some.injEq, Prod.mk.injEq] at h
                  obtain ⟨rfl, rfl⟩ := h
                  refine ⟨[byte], rfl, (spelledWithin_cons_of_lt hbyte).mpr
                    ⟨rfl, rfl, fun hbudget => ?_⟩⟩
                  omega
            · rintro ⟨spelling, happend, h⟩
              obtain ⟨first, spelling, rfl⟩ := List.exists_cons_of_ne_nil h.ne_nil
              rw [List.cons_append, List.cons.injEq] at happend
              obtain ⟨rfl, rfl⟩ := happend
              obtain ⟨rfl, rfl, hfull⟩ := (spelledWithin_cons_of_lt hbyte).mp h
              rw [if_neg (by omega)]
              rfl
          · rw [if_neg hbyte]
            have hbyte : 128 ≤ byte.toNat := Nat.le_of_not_lt hbyte
            constructor
            · intro h
              split at h
              · simp at h
              · next high tail hread =>
                  simp only [Option.some.injEq, Prod.mk.injEq] at h
                  obtain ⟨rfl, rfl⟩ := h
                  obtain ⟨spelling, rfl, hspelling⟩ := ih.mp hread
                  exact ⟨byte :: spelling, rfl,
                    (spelledWithin_cons_of_le hbyte).mpr ⟨high, hspelling, rfl⟩⟩
            · rintro ⟨spelling, happend, h⟩
              obtain ⟨first, spelling, rfl⟩ := List.exists_cons_of_ne_nil h.ne_nil
              rw [List.cons_append, List.cons.injEq] at happend
              obtain ⟨rfl, rfl⟩ := happend
              obtain ⟨high, hspelling, rfl⟩ := (spelledWithin_cons_of_le hbyte).mp h
              rw [ih.mpr ⟨spelling, rfl, hspelling⟩]

/-- The reader accepts exactly the spellings, whatever follows. -/
theorem read?_eq_some_iff {n : Nat} {bytes rest : List UInt8} :
    read? bytes = some (n, rest) ↔
      ∃ spelling, bytes = spelling ++ rest ∧ IsSpelling spelling n :=
  readWithin?_eq_some_iff

/-- A spelling is read as its number, whatever follows. -/
theorem IsSpelling.read? {n : Nat} {spelling : List UInt8} (h : IsSpelling spelling n)
    (rest : List UInt8) : Varint.read? (spelling ++ rest) = some (n, rest) :=
  read?_eq_some_iff.mpr ⟨spelling, rfl, h⟩

/-- A spelling at the start of bytes determines its number and what follows it. -/
theorem IsSpelling.append_inj {n₁ n₂ : Nat} {spelling₁ spelling₂ rest₁ rest₂ : List UInt8}
    (h₁ : IsSpelling spelling₁ n₁) (h₂ : IsSpelling spelling₂ n₂)
    (happend : spelling₁ ++ rest₁ = spelling₂ ++ rest₂) :
    n₁ = n₂ ∧ spelling₁ = spelling₂ ∧ rest₁ = rest₂ := by
  have hread := h₁.read? rest₁
  rw [happend, h₂.read? rest₂, Option.some.injEq, Prod.mk.injEq] at hread
  obtain ⟨rfl, rfl⟩ := hread
  exact ⟨rfl, List.append_cancel_right happend, rfl⟩

/-! ### Writing -/

/-- What is written for a number of at most 64 bits is one of its spellings. -/
theorem isSpelling_encode {n : Nat} (h : n < 0x10000000000000000) :
    IsSpelling (encode n) n := by
  obtain ⟨spelling, happend, hspelling⟩ := read?_eq_some_iff.mp (read?_encode [] h)
  rw [List.append_nil, List.append_nil] at happend
  rwa [happend]

/-- A spelling within `budget + 1` bytes has room for `budget` groups of seven bits and one
more bit. -/
theorem SpelledWithin.lt {budget n : Nat} {bytes : List UInt8}
    (h : SpelledWithin (budget + 1) bytes n) : n < 2 * Nat.pow 128 budget := by
  induction budget generalizing bytes n with
  | zero =>
      rcases h.byte_cases with ⟨byte, -, hfull, -, rfl⟩ | ⟨_, _, _, _, hhigh, _⟩
      · exact hfull rfl
      · exact absurd hhigh not_spelledWithin_zero
  | succ budget ih =>
      have hstep : Nat.pow 128 (budget + 1) = Nat.pow 128 budget * 128 := rfl
      have hpos : 0 < Nat.pow 128 budget := Nat.pow_pos (by decide)
      rcases h.byte_cases with ⟨byte, hbyte, -, -, rfl⟩ | ⟨byte, _, high, _, hhigh, -, rfl⟩
      · omega
      · have hlt := ih hhigh
        have hbits := byte.toNat_lt
        omega

/-- Only numbers of 64 bits are spelled. -/
theorem IsSpelling.lt {n : Nat} {bytes : List UInt8} (h : IsSpelling bytes n) :
    n < 0x10000000000000000 :=
  SpelledWithin.lt h

/-- Every spelling but the one that is written is longer than this. Induction on the budget: a
byte below 128 is what is written, and behind another one the higher digits either are zero, and
need no byte, or are spelled by what follows. -/
theorem SpelledWithin.eq_encode_or_lt {budget n : Nat} {bytes : List UInt8}
    (h : SpelledWithin budget bytes n) :
    bytes = encode n ∨ (encode n).length < bytes.length := by
  induction budget generalizing bytes n with
  | zero => exact absurd h not_spelledWithin_zero
  | succ budget ih =>
      rcases h.byte_cases with
        ⟨byte, hbyte, -, rfl, rfl⟩ | ⟨byte, tail, high, hbyte, hhigh, rfl, rfl⟩
      · rw [encode, if_pos hbyte]
        exact .inl (by simp)
      · have hbits := byte.toNat_lt
        by_cases hzero : high = 0
        · have hpos := List.length_pos_iff.mpr hhigh.ne_nil
          rw [encode, if_pos (by omega)]
          simp only [List.length_cons, List.length_nil]
          exact .inr (by omega)
        · have hdigit : (byte.toNat - 128 + 128 * high) % 128 + 128 = byte.toNat := by omega
          have hothers : (byte.toNat - 128 + 128 * high) / 128 = high := by omega
          rw [encode, if_neg (by omega), hdigit, hothers, List.length_cons, List.length_cons]
          rcases ih hhigh with rfl | hlt
          · exact .inl (by simp)
          · exact .inr (by omega)

/-- A spelling is the one that is written, or it is longer. -/
theorem IsSpelling.eq_encode_or_lt {n : Nat} {bytes : List UInt8} (h : IsSpelling bytes n) :
    bytes = encode n ∨ (encode n).length < bytes.length :=
  SpelledWithin.eq_encode_or_lt h

/-- The spelling of a number is minimal: no other spelling of it is shorter. -/
structure IsMinimal (bytes : List UInt8) (n : Nat) : Prop where
  /-- The bytes spell the number. -/
  isSpelling : IsSpelling bytes n
  /-- No other bytes that spell it are fewer. -/
  length_le : ∀ other, IsSpelling other n → bytes.length ≤ other.length

/-- A single byte is minimal, since a spelling has a last byte. -/
theorem isMinimal_singleton {byte : UInt8} (h : byte.toNat < 128) :
    IsMinimal [byte] byte.toNat :=
  ⟨isSpelling_singleton h, fun _ hother => List.length_pos_iff.mpr hother.ne_nil⟩

/-- The minimal spelling of a number is the one that is written. -/
theorem IsSpelling.isMinimal_iff {n : Nat} {bytes : List UInt8} (h : IsSpelling bytes n) :
    IsMinimal bytes n ↔ bytes = encode n := by
  constructor
  · intro hminimal
    have hle := hminimal.length_le (encode n) (isSpelling_encode h.lt)
    exact h.eq_encode_or_lt.resolve_right (Nat.not_lt_of_le hle)
  · rintro rfl
    refine ⟨h, fun other hother => ?_⟩
    rcases hother.eq_encode_or_lt with rfl | hlt
    · exact Nat.le_refl _
    · exact Nat.le_of_lt hlt

/-- What is written for a larger number than the budget can hold is no spelling within the
budget. -/
theorem readWithin?_encode_eq_none {budget n : Nat} (rest : List UInt8)
    (h : 2 * Nat.pow 128 budget ≤ n) :
    readWithin? (budget + 1) (encode n ++ rest) = none := by
  induction budget generalizing n with
  | zero =>
      have hn : 2 ≤ n := h
      rw [encode]
      split
      · next hsmall =>
          have hbyte := toNat_toUInt8 (show n < 256 by omega)
          rw [List.cons_append, readWithin?, hbyte, if_pos hsmall, if_pos ⟨rfl, hn⟩]
      · have hbyte := toNat_toUInt8 (show n % 128 + 128 < 256 by omega)
        simp only [List.cons_append, readWithin?, hbyte]
        rw [if_neg (by omega)]
  | succ budget ih =>
      have hstep : Nat.pow 128 (budget + 1) = Nat.pow 128 budget * 128 := rfl
      have hpos : 0 < Nat.pow 128 budget := Nat.pow_pos (by decide)
      have hbyte := toNat_toUInt8 (show n % 128 + 128 < 256 by omega)
      have hhigh : 2 * Nat.pow 128 budget ≤ n / 128 := by
        rw [hstep] at h
        omega
      rw [encode, if_neg (by omega)]
      rw [List.cons_append, readWithin?, hbyte, ih hhigh, if_neg (by omega)]

/-- What is written for a number is not read if it is cut off: all of its bytes but the last
have another one behind them. Induction on the bytes. -/
theorem readWithin?_cut_eq_none {budget n : Nat} {part missing : List UInt8}
    (h : part ++ missing = encode n) (hmissing : missing ≠ []) :
    readWithin? budget part = none := by
  cases budget with
  | zero => rfl
  | succ budget =>
      cases part with
      | nil => rfl
      | cons byte part =>
          rw [encode] at h
          split at h
          · obtain ⟨-, hnil⟩ := List.cons.inj h
            exact absurd (List.append_eq_nil_iff.mp hnil).2 hmissing
          · obtain ⟨rfl, htail⟩ := List.cons.inj h
            have hbyte := toNat_toUInt8 (show n % 128 + 128 < 256 by omega)
            rw [readWithin?, hbyte, if_neg (by omega),
              readWithin?_cut_eq_none htail hmissing]
termination_by part.length

/-- A number of which a byte is missing at the end is not read. -/
theorem read?_cut_eq_none {n : Nat} {part missing : List UInt8}
    (h : part ++ missing = encode n) (hmissing : missing ≠ []) : read? part = none :=
  readWithin?_cut_eq_none h hmissing

/-- A number of more than 64 bits is written as bytes that are not read as any number. -/
theorem read?_encode_eq_none {n : Nat} (rest : List UInt8)
    (h : 0x10000000000000000 ≤ n) : read? (encode n ++ rest) = none :=
  readWithin?_encode_eq_none rest h

end Varint

/-- A wire type is known by its code. -/
theorem WireType.ofCode?_eq_some_iff {code : Nat} {wireType : WireType} :
    WireType.ofCode? code = some wireType ↔ code = wireType.code := by
  constructor
  · intro h
    unfold WireType.ofCode? at h
    split at h
    case h_7 => simp at h
    all_goals
      obtain rfl := Option.some.inj h
      rfl
  · rintro rfl
    cases wireType <;> rfl

namespace Key

/-- The bytes spell the key: they spell its value, which has at most 32 bits, and the field
number is not zero. -/
structure IsSpelling (bytes : List UInt8) (key : Key) : Prop where
  /-- The bytes spell the value. -/
  varint : Varint.IsSpelling bytes key.value
  /-- The value has at most 32 bits. -/
  value_lt : key.value < 0x100000000
  /-- Field numbers start at one. -/
  number_pos : 1 ≤ key.number

/-- A byte below 128 is a spelling of the key that it stands for. -/
theorem isSpelling_singleton {byte : UInt8} {key : Key}
    (h : byte.toNat < 128 ∧ key.value = byte.toNat ∧ 1 ≤ key.number) :
    IsSpelling [byte] key := by
  obtain ⟨hbyte, hvalue, hnumber⟩ := h
  exact ⟨hvalue ▸ Varint.isSpelling_singleton hbyte, by omega, hnumber⟩

/-- The values that stand for keys, and the keys that they stand for. -/
theorem ofValue_eq_ok_iff {value : Nat} {key : Key} :
    ofValue value = .ok key ↔
      value = key.value ∧ value < 0x100000000 ∧ 1 ≤ key.number := by
  constructor
  · intro h
    rw [ofValue] at h
    split at h
    · simp at h
    · split at h
      · simp at h
      · next wireType hcode =>
          have hmod := WireType.ofCode?_eq_some_iff.mp hcode
          split at h
          · simp at h
          · obtain rfl := Except.ok.inj h
            refine ⟨?_, by omega, Nat.pos_of_ne_zero ‹_›⟩
            simp only [Key.value, ← hmod]
            omega
  · rintro ⟨rfl, hlt, hpos⟩
    obtain ⟨number, wireType⟩ := key
    have hcode : wireType.code < 8 := by
      cases wireType <;> decide
    have hmod : (Key.value ⟨number, wireType⟩) % 8 = wireType.code := by
      simp only [Key.value]
      omega
    have hdiv : (Key.value ⟨number, wireType⟩) / 8 = number := by
      simp only [Key.value]
      omega
    rw [ofValue, if_neg (by omega), hmod, hdiv,
      WireType.ofCode?_eq_some_iff.mpr rfl]
    simp only [if_neg (show ¬number = 0 from Nat.pos_iff_ne_zero.mp hpos)]

/-- The reader accepts exactly the spellings of keys, whatever follows. -/
theorem read_eq_ok_iff {key : Key} {bytes rest : List UInt8} :
    read bytes = .ok (key, rest) ↔
      ∃ spelling, bytes = spelling ++ rest ∧ IsSpelling spelling key := by
  constructor
  · intro h
    rw [read] at h
    split at h
    · simp at h
    · next value tail hread =>
        obtain ⟨spelling, rfl, hspelling⟩ := Varint.read?_eq_some_iff.mp hread
        split at h
        · simp at h
        · next hvalue =>
            obtain ⟨rfl, rfl⟩ := Prod.mk.inj (Except.ok.inj h)
            obtain ⟨rfl, hlt, hpos⟩ := ofValue_eq_ok_iff.mp hvalue
            exact ⟨spelling, rfl, hspelling, hlt, hpos⟩
  · rintro ⟨spelling, rfl, h⟩
    have hvalue := ofValue_eq_ok_iff.mpr ⟨rfl, h.value_lt, h.number_pos⟩
    simp only [read, h.varint.read? rest, hvalue]

/-- A spelling is read as its key, whatever follows. -/
theorem IsSpelling.read {key : Key} {spelling : List UInt8} (h : IsSpelling spelling key)
    (rest : List UInt8) : Key.read (spelling ++ rest) = .ok (key, rest) :=
  read_eq_ok_iff.mpr ⟨spelling, rfl, h⟩

/-- A key is spelled with a byte at least. -/
theorem IsSpelling.ne_nil {key : Key} {spelling : List UInt8}
    (h : IsSpelling spelling key) : spelling ≠ [] :=
  h.varint.ne_nil

/-- A spelling at the start of bytes determines its key and what follows it. -/
theorem IsSpelling.append_inj {key₁ key₂ : Key}
    {spelling₁ spelling₂ rest₁ rest₂ : List UInt8}
    (h₁ : IsSpelling spelling₁ key₁) (h₂ : IsSpelling spelling₂ key₂)
    (happend : spelling₁ ++ rest₁ = spelling₂ ++ rest₂) :
    key₁ = key₂ ∧ spelling₁ = spelling₂ ∧ rest₁ = rest₂ := by
  have hread := h₁.read rest₁
  rw [happend, h₂.read rest₂, Except.ok.injEq, Prod.mk.injEq] at hread
  obtain ⟨rfl, rfl⟩ := hread
  exact ⟨rfl, List.append_cancel_right happend, rfl⟩

/-- What is written for a key is one of its spellings. -/
theorem isSpelling_encode {key : Key} (hlt : key.value < 0x100000000)
    (hpos : 1 ≤ key.number) : IsSpelling (Varint.encode key.value) key :=
  ⟨Varint.isSpelling_encode (by omega), hlt, hpos⟩

end Key

end InferenceConfig
