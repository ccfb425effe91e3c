import InferenceConfig.Byte

/-!
# UTF-8

Bytes are read as UTF-8 one character at a time. What cannot be read is described as far
as its reader needs it: where it starts, and how many bytes could still have started a
character.

## Main definitions

* `Utf8.encodeChar`, `Utf8.encode` — the bytes of a character and of a text;
* `Utf8.next` — the first character of nonempty bytes, or why there is none;
* `Utf8.decode` — the text of the bytes, or the first `Utf8.Fault`;
* `Utf8.decodeLossy` — the text with every maximal unreadable part replaced by U+FFFD.

## Main statements

* `Utf8.next_encodeChar`, `Utf8.decode_encode` — reading gives back what was written.
-/

namespace InferenceConfig

namespace Utf8

/-- The bytes of one character. -/
def encodeChar (c : Char) : List UInt8 :=
  let v := c.toNat
  if v < 0x80 then [v.toUInt8]
  else if v < 0x800 then [(0xC0 + v / 64).toUInt8, (0x80 + v % 64).toUInt8]
  else if v < 0x10000 then
    [(0xE0 + v / 4096).toUInt8, (0x80 + v / 64 % 64).toUInt8, (0x80 + v % 64).toUInt8]
  else
    [(0xF0 + v / 262144).toUInt8, (0x80 + v / 4096 % 64).toUInt8,
      (0x80 + v / 64 % 64).toUInt8, (0x80 + v % 64).toUInt8]

/-- The bytes of a text. -/
def encode (text : List Char) : List UInt8 :=
  text.flatMap encodeChar

/-- Why no character starts at a place. -/
inductive Stop where
  /-- The bytes cannot continue as a character; `length` of them, at least one, make up
  the longest start of a character. -/
  | invalid (length : Nat)
  /-- The input ends inside a character. -/
  | incomplete
  deriving DecidableEq, Repr

/-- What the first byte of a character announces: the value of its own bits, how many
bytes follow, and the range of the next byte. The ranges leave out longer spellings than
needed, surrogates, and values above U+10FFFF. -/
structure Lead where
  /-- The bits of the first byte. -/
  bits : Nat
  /-- The number of bytes that follow. -/
  count : Nat
  /-- The least value of the next byte. -/
  low : Nat := 0x80
  /-- The greatest value of the next byte. -/
  high : Nat := 0xBF
  deriving DecidableEq, Repr

/-- The announcement of a first byte, unless no character starts with it. -/
def Lead.ofByte? (byte : UInt8) : Option Lead :=
  let b := byte.toNat
  if b < 0x80 then some { bits := b, count := 0 }
  else if b < 0xC2 then none
  else if b < 0xE0 then some { bits := b - 0xC0, count := 1 }
  else if b = 0xE0 then some { bits := 0, count := 2, low := 0xA0 }
  else if b = 0xED then some { bits := 13, count := 2, high := 0x9F }
  else if b < 0xF0 then some { bits := b - 0xE0, count := 2 }
  else if b = 0xF0 then some { bits := 0, count := 3, low := 0x90 }
  else if b < 0xF4 then some { bits := b - 0xF0, count := 3 }
  else if b = 0xF4 then some { bits := 4, count := 3, high := 0x8F }
  else none

/-- Reads the bytes that follow a first byte: `count` more, the next of them between `low`
and `high`, after `read` bytes whose bits are `value`. -/
def tail : (count low high read value : Nat) → (bytes : List UInt8) →
    Except Stop (Nat × List UInt8)
  | 0, _, _, _, value, bytes => .ok (value, bytes)
  | _ + 1, _, _, _, _, [] => .error .incomplete
  | count + 1, low, high, read, value, byte :: bytes =>
    if low ≤ byte.toNat ∧ byte.toNat ≤ high then
      tail count 0x80 0xBF (read + 1) (value * 64 + (byte.toNat - 0x80)) bytes
    else .error (.invalid read)

/-- The first character of the bytes and what follows it. -/
def next : List UInt8 → Except Stop (Char × List UInt8)
  | [] => .error .incomplete
  | byte :: bytes =>
    match Lead.ofByte? byte with
    | none => .error (.invalid 1)
    | some lead =>
      match tail lead.count lead.low lead.high 1 lead.bits bytes with
      | .error stop => .error stop
      | .ok (value, rest) => .ok (Char.ofNat value, rest)

/-- Reading the later bytes of a character leaves no more bytes. -/
theorem length_of_tail {count low high read value v : Nat} {bytes rest : List UInt8}
    (h : tail count low high read value bytes = .ok (v, rest)) :
    rest.length ≤ bytes.length := by
  induction count generalizing low high read value bytes with
  | zero =>
    simp only [tail, Except.ok.injEq, Prod.mk.injEq] at h
    simp [h.2]
  | succ count ih =>
    cases bytes with
    | nil => simp [tail] at h
    | cons byte bytes =>
      simp only [tail] at h
      split at h
      · exact Nat.le_succ_of_le (ih h)
      · simp at h

/-- A character is at least one byte long. -/
theorem length_of_next {bytes rest : List UInt8} {c : Char}
    (h : next bytes = .ok (c, rest)) : rest.length < bytes.length := by
  cases bytes with
  | nil => simp [next] at h
  | cons byte bytes =>
    simp only [next] at h
    split at h
    · simp at h
    · split at h
      · simp at h
      · next heq =>
        simp only [Except.ok.injEq, Prod.mk.injEq] at h
        have := length_of_tail heq
        simp only [List.length_cons, ← h.2]
        omega

/-- The first place where bytes are not UTF-8. -/
structure Fault where
  /-- The number of bytes before the place. -/
  index : Nat
  /-- What is wrong there. -/
  stop : Stop
  deriving DecidableEq, Repr

/-- The wording of a fault. -/
def Fault.message (fault : Fault) : String :=
  match fault.stop with
  | .invalid length =>
    "invalid utf-8 sequence of " ++ toString length ++ " bytes from index "
      ++ toString fault.index
  | .incomplete => "incomplete utf-8 byte sequence from index " ++ toString fault.index

/-- The text of the bytes that follow the first `index` ones. -/
def decodeFrom (index : Nat) (bytes : List UInt8) : Except Fault (List Char) :=
  if bytes.isEmpty then .ok []
  else
    match _h : next bytes with
    | .error stop => .error ⟨index, stop⟩
    | .ok (c, rest) =>
      match decodeFrom (index + (bytes.length - rest.length)) rest with
      | .error fault => .error fault
      | .ok text => .ok (c :: text)
termination_by bytes.length
decreasing_by exact length_of_next _h

/-- The text of the bytes, or the first place where they are not UTF-8. -/
def decode (bytes : List UInt8) : Except Fault (List Char) :=
  decodeFrom 0 bytes

/-- The character that stands for bytes that cannot be read. -/
def replacement : Char := Char.ofNat 0xFFFD

/-- The text of the bytes, where each longest start of a character that does not continue
as one, and each byte that starts none, counts as one replacement character. -/
def decodeLossy (bytes : List UInt8) : List Char :=
  match bytes with
  | [] => []
  | byte :: bytes =>
    match h : next (byte :: bytes) with
    | .ok (c, rest) => c :: decodeLossy rest
    | .error .incomplete => [replacement]
    | .error (.invalid length) => replacement :: decodeLossy (bytes.drop (length - 1))
termination_by bytes.length
decreasing_by
  · exact length_of_next h
  · simp only [List.length_drop, List.length_cons]
    omega

/-! ### Reading what was written -/

/-- A character is below the surrogates or above them. -/
theorem valid_toNat (c : Char) :
    c.toNat < 0xD800 ∨ 0xDFFF < c.toNat ∧ c.toNat < 0x110000 :=
  c.valid

/-- A byte in the range that is asked for adds its six bits. -/
theorem tail_cons {count low high read value b : Nat} {bytes : List UInt8} (hb : b < 256)
    (h : low ≤ b ∧ b ≤ high) :
    tail (count + 1) low high read value (b.toUInt8 :: bytes) =
      tail count 0x80 0xBF (read + 1) (value * 64 + (b - 0x80)) bytes := by
  rw [tail, toNat_toUInt8 hb, if_pos h]

/-- The lead byte of a character of one byte. -/
theorem lead_one {v : Nat} (h : v < 0x80) :
    Lead.ofByte? v.toUInt8 = some { bits := v, count := 0 } := by
  rw [Lead.ofByte?, toNat_toUInt8 (by omega), if_pos h]

/-- The lead byte of a character of two bytes. -/
theorem lead_two {v : Nat} (h : 0x80 ≤ v) (h' : v < 0x800) :
    Lead.ofByte? (0xC0 + v / 64).toUInt8 = some { bits := v / 64, count := 1 } := by
  rw [Lead.ofByte?, toNat_toUInt8 (by omega), if_neg (by omega), if_neg (by omega),
    if_pos (by omega), Nat.add_sub_cancel_left]

/-- The range for the second of three bytes has room for every character. -/
theorem lead_three {v : Nat} (h : 0x800 ≤ v) (h' : v < 0x10000)
    (hv : v < 0xD800 ∨ 0xDFFF < v) :
    ∃ low high, Lead.ofByte? (0xE0 + v / 4096).toUInt8 =
        some { bits := v / 4096, count := 2, low, high } ∧
      low ≤ 0x80 + v / 64 % 64 ∧ 0x80 + v / 64 % 64 ≤ high := by
  rw [Lead.ofByte?, toNat_toUInt8 (by omega), if_neg (by omega), if_neg (by omega),
    if_neg (by omega)]
  by_cases zero : v / 4096 = 0
  · exact ⟨_, _, by rw [if_pos (by omega), zero], by omega, by omega⟩
  rw [if_neg (by omega)]
  by_cases thirteen : v / 4096 = 13
  · exact ⟨_, _, by rw [if_pos (by omega), thirteen], by omega, by omega⟩
  rw [if_neg (by omega), if_pos (by omega)]
  exact ⟨_, _, by rw [Nat.add_sub_cancel_left], by omega, by omega⟩

/-- The range for the second of four bytes has room for every character. -/
theorem lead_four {v : Nat} (h : 0x10000 ≤ v) (h' : v < 0x110000) :
    ∃ low high, Lead.ofByte? (0xF0 + v / 262144).toUInt8 =
        some { bits := v / 262144, count := 3, low, high } ∧
      low ≤ 0x80 + v / 4096 % 64 ∧ 0x80 + v / 4096 % 64 ≤ high := by
  rw [Lead.ofByte?, toNat_toUInt8 (by omega), if_neg (by omega), if_neg (by omega),
    if_neg (by omega), if_neg (by omega), if_neg (by omega), if_neg (by omega)]
  by_cases zero : v / 262144 = 0
  · exact ⟨_, _, by rw [if_pos (by omega), zero], by omega, by omega⟩
  rw [if_neg (by omega)]
  by_cases four : v / 262144 = 4
  · refine ⟨_, _, by rw [if_neg (by omega), if_pos (by omega), four], by omega, by omega⟩
  rw [if_pos (by omega)]
  exact ⟨_, _, by rw [Nat.add_sub_cancel_left], by omega, by omega⟩

/-- The bytes of a character are read as that character. -/
theorem next_encodeChar (c : Char) (rest : List UInt8) :
    next (encodeChar c ++ rest) = .ok (c, rest) := by
  have hv := valid_toNat c
  have hc : Char.ofNat c.toNat = c := Char.ofNat_toNat c
  generalize hn : c.toNat = v at hv hc
  rw [encodeChar, hn]
  by_cases one : v < 0x80
  · rw [if_pos one]
    simp only [List.cons_append, List.nil_append, next, lead_one one, tail, hc]
  by_cases two : v < 0x800
  · rw [if_neg one, if_pos two]
    have value : v / 64 * 64 + (128 + v % 64 - 128) = v := by omega
    simp only [List.cons_append, List.nil_append, next, lead_two (by omega) two]
    rw [tail_cons (by omega) (by omega), tail]
    simp only [value, hc]
  by_cases three : v < 0x10000
  · rw [if_neg one, if_neg two, if_pos three]
    obtain ⟨low, high, hl, hr⟩ := lead_three (by omega) three (by omega)
    have value : (v / 4096 * 64 + (128 + v / 64 % 64 - 128)) * 64
        + (128 + v % 64 - 128) = v := by omega
    simp only [List.cons_append, List.nil_append, next, hl]
    rw [tail_cons (by omega) hr, tail_cons (by omega) (by omega), tail]
    simp only [value, hc]
  · rw [if_neg one, if_neg two, if_neg three]
    obtain ⟨low, high, hl, hr⟩ := lead_four (v := v) (by omega) (by omega)
    have value : ((v / 262144 * 64 + (128 + v / 4096 % 64 - 128)) * 64
        + (128 + v / 64 % 64 - 128)) * 64 + (128 + v % 64 - 128) = v := by omega
    simp only [List.cons_append, List.nil_append, next, hl]
    rw [tail_cons (by omega) hr, tail_cons (by omega) (by omega),
      tail_cons (by omega) (by omega), tail]
    simp only [value, hc]

/-- Every character has a byte at least. -/
theorem encodeChar_ne_nil (c : Char) : encodeChar c ≠ [] := by
  simp only [encodeChar]
  split
  · simp
  · split
    · simp
    · split <;> simp

/-- What is encoded is decoded again, at any index. Induction on the text. -/
theorem decodeFrom_encode (index : Nat) (text : List Char) :
    decodeFrom index (encode text) = .ok text := by
  induction text generalizing index with
  | nil => rw [encode, List.flatMap_nil, decodeFrom]; rfl
  | cons c text ih =>
    rw [encode, List.flatMap_cons, ← encode, decodeFrom,
      if_neg (by simp [encodeChar_ne_nil])]
    have hn := next_encodeChar c (encode text)
    split
    · next h => simp [hn] at h
    · next h =>
      rw [hn] at h
      simp only [Except.ok.injEq, Prod.mk.injEq] at h
      obtain ⟨rfl, rfl⟩ := h
      rw [ih]

/-- The bytes of a text are read as that text. -/
theorem decode_encode (text : List Char) : decode (encode text) = .ok text :=
  decodeFrom_encode 0 text

end Utf8

end InferenceConfig
