import InferenceConfig.Unicode.Utf8

/-!
# UTF-8 Is Read Exactly

Reading gives back what was written; here is the converse. Whatever is read as a text is
the bytes of that text, so there is one spelling of every text and nothing else is read.
The bytes of a text are also those that the standard library keeps for a string.

## Main results

* `Utf8.next_eq_ok_iff` — a character is read exactly from its own bytes;
* `Utf8.decode_eq_ok_iff` — a text is read exactly from its own bytes;
* `Utf8.isPrefix_of_encode_append` — bytes that come first spell a text that comes first;
* `Utf8.encode_toList`, `Utf8.length_encode_toList` — the bytes of a string and their
  number.
-/

namespace InferenceConfig

namespace Utf8

/-! ### The bytes of a string -/

/-- Characters are encoded as those of strings are. -/
theorem encodeChar_eq_utf8EncodeChar (c : Char) :
    encodeChar c = String.utf8EncodeChar c := by
  have hvalid := valid_toNat c
  have hval : c.val.toNat = c.toNat := rfl
  have hbyte : ∀ n : Nat, n.toUInt8 = UInt8.ofNat n := fun _ => rfl
  rw [encodeChar, String.utf8EncodeChar]
  simp only [hval, hbyte]
  generalize c.toNat = v at hvalid
  by_cases one : v < 0x80
  · rw [if_pos one, if_pos (by omega)]
  by_cases two : v < 0x800
  · rw [if_neg one, if_pos two, if_neg (by omega), if_pos (by omega),
      show v / 64 % 0x20 + 0xc0 = 0xC0 + v / 64 by omega, Nat.add_comm 0x80]
  by_cases three : v < 0x10000
  · rw [if_neg one, if_neg two, if_pos three, if_neg (by omega), if_neg (by omega),
      if_pos (by omega), show v / 4096 % 0x10 + 0xe0 = 0xE0 + v / 4096 by omega,
      Nat.add_comm 0x80, Nat.add_comm 0x80]
  · rw [if_neg one, if_neg two, if_neg three, if_neg (by omega), if_neg (by omega),
      if_neg (by omega), show v / 262144 % 0x08 + 0xf0 = 0xF0 + v / 262144 by omega,
      Nat.add_comm 0x80, Nat.add_comm 0x80, Nat.add_comm 0x80]

/-- A character takes at most four bytes. -/
theorem length_encodeChar_le (c : Char) : (encodeChar c).length ≤ 4 := by
  simp only [encodeChar]
  split
  · simp
  split
  · simp
  split <;> simp

/-- The bytes of a string are those that the string is stored as. -/
theorem encode_toList (value : String) :
    encode value.toList = value.toByteArray.data.toList := by
  calc encode value.toList
      = value.toList.flatMap String.utf8EncodeChar := by
        rw [encode, funext encodeChar_eq_utf8EncodeChar]
    _ = (String.ofList value.toList).toByteArray.data.toList := by
        rw [String.toByteArray_ofList]
        simp [List.utf8Encode]
    _ = value.toByteArray.data.toList := by rw [String.ofList_toList]

/-- The number of bytes of a string. -/
theorem length_encode_toList (value : String) :
    (encode value.toList).length = value.utf8ByteSize := by
  rw [encode_toList, Array.length_toList]
  rfl

/-! ### Reading is exact -/

/-- Every number that is no surrogate, and not too large, is that of a character. -/
theorem toNat_ofNat {v : Nat} (h : v < 0xD800 ∨ 0xDFFF < v ∧ v < 0x110000) :
    (Char.ofNat v).toNat = v := by
  have hvalid : v.isValidChar := h
  rw [Char.ofNat, dif_pos hvalid]
  rfl

/-- What a first byte announces, by the number of bytes that follow it. -/
theorem Lead.of_ofByte? {byte : UInt8} {bits count low high : Nat}
    (h : Lead.ofByte? byte = some ⟨bits, count, low, high⟩) :
    (count = 0 ∧ byte.toNat = bits ∧ bits < 0x80) ∨
    (count = 1 ∧ byte.toNat = 0xC0 + bits ∧ 2 ≤ bits ∧ bits < 32 ∧
      0x80 ≤ low ∧ high ≤ 0xBF) ∨
    (count = 2 ∧ byte.toNat = 0xE0 + bits ∧ bits < 16 ∧ 0x80 ≤ low ∧ high ≤ 0xBF ∧
      (bits = 0 → 0xA0 ≤ low) ∧ (bits = 13 → high ≤ 0x9F)) ∨
    (count = 3 ∧ byte.toNat = 0xF0 + bits ∧ bits ≤ 4 ∧ 0x80 ≤ low ∧ high ≤ 0xBF ∧
      (bits = 0 → 0x90 ≤ low) ∧ (bits = 4 → high ≤ 0x8F)) := by
  rw [Lead.ofByte?] at h
  generalize byte.toNat = b at h ⊢
  by_cases ascii : b < 0x80
  · rw [if_pos ascii, Option.some.injEq, Lead.mk.injEq] at h
    exact .inl (by omega)
  rw [if_neg ascii] at h
  by_cases unused : b < 0xC2
  · simp [if_pos unused] at h
  rw [if_neg unused] at h
  by_cases two : b < 0xE0
  · rw [if_pos two, Option.some.injEq, Lead.mk.injEq] at h
    exact .inr (.inl (by omega))
  rw [if_neg two] at h
  by_cases low₃ : b = 0xE0
  · rw [if_pos low₃, Option.some.injEq, Lead.mk.injEq] at h
    exact .inr (.inr (.inl (by omega)))
  rw [if_neg low₃] at h
  by_cases surrogates : b = 0xED
  · rw [if_pos surrogates, Option.some.injEq, Lead.mk.injEq] at h
    exact .inr (.inr (.inl (by omega)))
  rw [if_neg surrogates] at h
  by_cases three : b < 0xF0
  · rw [if_pos three, Option.some.injEq, Lead.mk.injEq] at h
    exact .inr (.inr (.inl (by omega)))
  rw [if_neg three] at h
  by_cases low₄ : b = 0xF0
  · rw [if_pos low₄, Option.some.injEq, Lead.mk.injEq] at h
    exact .inr (.inr (.inr (by omega)))
  rw [if_neg low₄] at h
  by_cases four : b < 0xF4
  · rw [if_pos four, Option.some.injEq, Lead.mk.injEq] at h
    exact .inr (.inr (.inr (by omega)))
  rw [if_neg four] at h
  by_cases high₄ : b = 0xF4
  · rw [if_pos high₄, Option.some.injEq, Lead.mk.injEq] at h
    exact .inr (.inr (.inr (by omega)))
  · simp [if_neg high₄] at h

/-- A byte that was read after a first byte. -/
theorem tail_succ_eq_ok {count low high read value v : Nat} {bytes rest : List UInt8}
    (h : tail (count + 1) low high read value bytes = .ok (v, rest)) :
    ∃ byte later, bytes = byte :: later ∧ low ≤ byte.toNat ∧ byte.toNat ≤ high ∧
      tail count 0x80 0xBF (read + 1) (value * 64 + (byte.toNat - 0x80)) later =
        .ok (v, rest) := by
  cases bytes with
  | nil => simp [tail] at h
  | cons byte later =>
      rw [tail] at h
      split at h
      · next hrange => exact ⟨byte, later, rfl, hrange.1, hrange.2, h⟩
      · simp at h

/-- A byte is determined by its number. -/
theorem eq_toUInt8 {byte : UInt8} {n : Nat} (h : byte.toNat = n) : byte = n.toUInt8 := by
  subst h
  simp

/-- A character is only read from its own bytes. -/
theorem eq_encodeChar_of_next {c : Char} {bytes rest : List UInt8}
    (h : next bytes = .ok (c, rest)) : bytes = encodeChar c ++ rest := by
  cases bytes with
  | nil => simp [next] at h
  | cons first bytes =>
      rw [next] at h
      split at h
      · simp at h
      next lead hlead =>
      obtain ⟨bits, count, low, high⟩ := lead
      split at h
      · simp at h
      next v rest' htail =>
      simp only [Except.ok.injEq, Prod.mk.injEq] at h htail
      obtain ⟨rfl, rfl⟩ := h
      -- One case for each length. The range of the second byte excludes longer spellings.
      rcases Lead.of_ofByte? hlead with ⟨rfl, hfirst, hbits⟩ |
        ⟨rfl, hfirst, hmin, hmax, hlow, hhigh⟩ |
        ⟨rfl, hfirst, hbits, hlow, hhigh, hzero, hthirteen⟩ |
        ⟨rfl, hfirst, hbits, hlow, hhigh, hzero, hfour⟩
      · rw [tail, Except.ok.injEq, Prod.mk.injEq] at htail
        obtain ⟨rfl, rfl⟩ := htail
        simp only [encodeChar, toNat_ofNat (v := bits) (by omega)]
        rw [if_pos hbits, eq_toUInt8 hfirst]
        rfl
      · obtain ⟨b₁, bytes, rfl, hlow₁, hhigh₁, htail⟩ := tail_succ_eq_ok htail
        rw [tail, Except.ok.injEq, Prod.mk.injEq] at htail
        obtain ⟨hvalue, rfl⟩ := htail
        simp only [encodeChar, toNat_ofNat (v := v) (by omega)]
        rw [if_neg (by omega), if_pos (by omega)]
        rw [eq_toUInt8 (show first.toNat = 0xC0 + v / 64 by omega),
          eq_toUInt8 (show b₁.toNat = 0x80 + v % 64 by omega)]
        rfl
      · obtain ⟨b₁, bytes, rfl, hlow₁, hhigh₁, htail⟩ := tail_succ_eq_ok htail
        obtain ⟨b₂, bytes, rfl, hlow₂, hhigh₂, htail⟩ := tail_succ_eq_ok htail
        rw [tail, Except.ok.injEq, Prod.mk.injEq] at htail
        obtain ⟨hvalue, rfl⟩ := htail
        simp only [encodeChar, toNat_ofNat (v := v) (by omega)]
        rw [if_neg (by omega), if_neg (by omega), if_pos (by omega)]
        rw [eq_toUInt8 (show first.toNat = 0xE0 + v / 4096 by omega),
          eq_toUInt8 (show b₁.toNat = 0x80 + v / 64 % 64 by omega),
          eq_toUInt8 (show b₂.toNat = 0x80 + v % 64 by omega)]
        rfl
      · obtain ⟨b₁, bytes, rfl, hlow₁, hhigh₁, htail⟩ := tail_succ_eq_ok htail
        obtain ⟨b₂, bytes, rfl, hlow₂, hhigh₂, htail⟩ := tail_succ_eq_ok htail
        obtain ⟨b₃, bytes, rfl, hlow₃, hhigh₃, htail⟩ := tail_succ_eq_ok htail
        rw [tail, Except.ok.injEq, Prod.mk.injEq] at htail
        obtain ⟨hvalue, rfl⟩ := htail
        simp only [encodeChar, toNat_ofNat (v := v) (by omega)]
        rw [if_neg (by omega), if_neg (by omega), if_neg (by omega)]
        rw [eq_toUInt8 (show first.toNat = 0xF0 + v / 262144 by omega),
          eq_toUInt8 (show b₁.toNat = 0x80 + v / 4096 % 64 by omega),
          eq_toUInt8 (show b₂.toNat = 0x80 + v / 64 % 64 by omega),
          eq_toUInt8 (show b₃.toNat = 0x80 + v % 64 by omega)]
        rfl

/-- A character is read exactly from its own bytes, whatever follows. -/
theorem next_eq_ok_iff {c : Char} {bytes rest : List UInt8} :
    next bytes = .ok (c, rest) ↔ bytes = encodeChar c ++ rest :=
  ⟨eq_encodeChar_of_next, fun h => h ▸ next_encodeChar c rest⟩

/-- Only the encoding of a text is decoded to it. Induction on the run of the decoder. -/
theorem eq_encode_of_decodeFrom {index : Nat} {bytes : List UInt8} {text : List Char}
    (h : decodeFrom index bytes = .ok text) : bytes = encode text := by
  fun_induction decodeFrom index bytes generalizing text with
  | case1 index bytes hempty =>
      obtain rfl := Except.ok.inj h
      rw [List.isEmpty_iff.mp hempty]
      rfl
  | case2 => simp at h
  | case3 => simp at h
  | case4 index bytes _ c rest hnext later _ ih =>
      obtain rfl := Except.ok.inj h
      rw [eq_encodeChar_of_next hnext, ih ‹_›]
      rfl

/-- A text is read exactly from its own bytes. -/
theorem decode_eq_ok_iff {bytes : List UInt8} {text : List Char} :
    decode bytes = .ok text ↔ bytes = encode text :=
  ⟨eq_encode_of_decodeFrom, fun h => h ▸ decode_encode text⟩

/-- Different texts have different bytes. -/
theorem encode_injective {text₁ text₂ : List Char} (h : encode text₁ = encode text₂) :
    text₁ = text₂ := by
  have hdecode := decode_encode text₁
  rw [h, decode_encode, Except.ok.injEq] at hdecode
  exact hdecode.symm

/-! ### Texts behind one another -/

/-- A text is encoded character by character. -/
theorem encode_cons (c : Char) (text : List Char) :
    encode (c :: text) = encodeChar c ++ encode text :=
  List.flatMap_cons

/-- Texts are encoded one after the other. -/
theorem encode_append (first second : List Char) :
    encode (first ++ second) = encode first ++ encode second :=
  List.flatMap_append

/-- The encoding of a text of one character. -/
theorem encode_singleton (c : Char) : encode [c] = encodeChar c :=
  List.append_nil _

/-- A text whose bytes come first among the bytes of another text is the start of that text:
no character is written as the first bytes of another one. -/
theorem isPrefix_of_encode_append {part whole : List Char} {missing : List UInt8}
    (h : encode part ++ missing = encode whole) : part <+: whole := by
  induction part generalizing whole with
  | nil => exact List.nil_prefix
  | cons c part ih =>
      rw [encode_cons, List.append_assoc] at h
      cases whole with
      | nil =>
          have hnext := next_eq_ok_iff.mpr h.symm
          simp [encode, next] at hnext
      | cons d whole =>
          rw [encode_cons] at h
          have hnext := (next_eq_ok_iff.mpr h.symm).symm.trans (next_encodeChar d _)
          obtain ⟨rfl, hrest⟩ := Prod.mk.inj (Except.ok.inj hnext)
          exact List.cons_prefix_cons.mpr ⟨rfl, ih hrest⟩

end Utf8

end InferenceConfig
