import InferenceConfig.Proofs.Wire.RoundTrip
import Mathlib.Algebra.GroupWithZero.Nat
import Mathlib.Data.Nat.Log

/-!
# Encoding Into a Buffer

A message is encoded into a buffer only if its size, which is computed before, fits. After that
its bytes are put into the buffer one by one, and each of them needs room. This module has such
buffers beside the encoding: they overrun as soon as a byte finds no room. A buffer does not
overrun exactly if the computed size fits, so the size is neither too small nor too large.

The size of a number is given here in closed form as well, by the position of its highest bit.
Nine sixty-fourths stand for the seventh part there, which is only right for numbers of at most 64
bits. The layout of a body makes no difference to the size of its key.

## Main definitions

* `Varint.sizeByBits`, `Wire.sizeByBits` — the sizes of numbers and messages in closed form;
* `Wire.Buffer`, `Wire.Buffer.putMessage?` — buffers, and encoding into them byte by byte.

## Main results

* `Varint.size_eq_sizeByBits`, `Wire.encodedSize_eq_sizeByBits` — the closed forms are right for
  sizes of at most 64 bits;
* `Wire.Buffer.write?_eq_some_iff` — when a buffer does not overrun;
* `Wire.encodeWithin_exact` — encoding into a buffer as a whole.
-/

namespace InferenceConfig

namespace Varint

/-- The size of a number of at most 64 bits, by the position of its highest bit. -/
def sizeByBits (n : Nat) : Nat :=
  (9 * Nat.log2 n + 73) / 64

/-- The size is known from the position of the highest bit. Induction on the run: each byte takes
seven bits, so its share is 63, and over nine bytes the rounding makes up for the 64th. -/
theorem size_eq_sizeByBits {n : Nat} (h : n < 0x10000000000000000) : size n = sizeByBits n := by
  fun_induction size n with
  | case1 n hsmall =>
      have hbits : Nat.log 2 n ≤ Nat.log 2 127 := Nat.log_mono_right (Nat.le_of_lt_succ hsmall)
      have hlog : Nat.log 2 127 = 6 := by decide
      rw [sizeByBits, Nat.log2_eq_log_two]
      omega
  | case2 n hlarge ih =>
      have hlow : Nat.log 2 128 ≤ Nat.log 2 n := Nat.log_mono_right (Nat.le_of_not_lt hlarge)
      have hhigh : Nat.log 2 n < 64 := Nat.log_lt_of_lt_pow (by omega) h
      have hgroup : Nat.log 2 (n / 128) = Nat.log 2 n - 7 := Nat.log_div_base_pow 2 n 7
      have hlog : Nat.log 2 128 = 7 := by decide
      rw [ih (by omega), sizeByBits, sizeByBits, Nat.log2_eq_log_two, Nat.log2_eq_log_two, hgroup]
      omega

/-- The lowest three bits do not make a number longer. -/
theorem sizeByBits_add {n code : Nat} (hn : 1 ≤ n) (hcode : code < 8) :
    sizeByBits (n * 8 + code) = sizeByBits (n * 8) := by
  have hshift (low : Nat) (hlow : low < 8) : Nat.log 2 (n * 8 + low) = Nat.log 2 n + 3 := by
    have hdiv : Nat.log 2 ((n * 8 + low) / 2 ^ 3) = Nat.log 2 (n * 8 + low) - 3 :=
      Nat.log_div_base_pow 2 _ 3
    have hleast : Nat.log 2 8 ≤ Nat.log 2 (n * 8 + low) := Nat.log_mono_right (by omega)
    have hlog : Nat.log 2 8 = 3 := by decide
    have hn : (n * 8 + low) / 2 ^ 3 = n := by omega
    rw [hn] at hdiv
    omega
  have hzero := hshift 0 (by decide)
  rw [Nat.add_zero] at hzero
  rw [sizeByBits, sizeByBits, Nat.log2_eq_log_two, Nat.log2_eq_log_two, hshift code hcode, hzero]

end Varint

namespace Wire

variable {kind : Kind}

/-! ### The size in closed form -/

/-- The number of bytes of a message: for each field the keys of its values, and for each value
its length and its bytes. -/
def sizeByBits (message : Message kind) : Nat :=
  (kind.fields.map fun field =>
    Varint.sizeByBits (field.number * 8) * (message.values field.number).length +
      ((message.values field.number).map fun value =>
        Varint.sizeByBits value.utf8ByteSize + value.utf8ByteSize).sum).sum

/-- The size of the values of a field in closed form, with the length of each before it. -/
theorem bodiesSize_eq_sum {values : List String}
    (h : ∀ value ∈ values, value.utf8ByteSize < 0x10000000000000000) :
    bodiesSize values =
      (values.map fun value => Varint.sizeByBits value.utf8ByteSize + value.utf8ByteSize).sum := by
  induction values with
  | nil => rfl
  | cons value values ih =>
      obtain ⟨hvalue, hvalues⟩ := List.forall_mem_cons.mp h
      rw [bodiesSize, Varint.size_eq_sizeByBits hvalue, ih hvalues, List.map_cons, List.sum_cons]

/-- The size of a key of the kind, whatever the layout of the body is. -/
theorem size_key {field : Field} (h : field ∈ kind.fields) :
    Varint.size (Key.value ⟨field.number, .lengthDelimited⟩) =
      Varint.sizeByBits (field.number * 8) := by
  obtain ⟨hpos, hlt⟩ := Kind.number_pos_and_lt h
  have hvalue : Key.value ⟨field.number, .lengthDelimited⟩ = field.number * 8 + 2 := rfl
  rw [hvalue, Varint.size_eq_sizeByBits (by omega), Varint.sizeByBits_add hpos (by decide)]

/-- The size that is computed is the one in closed form, if it has at most 64 bits. -/
theorem encodedSize_eq_sizeByBits {message : Message kind}
    (h : encodedSize message < 0x10000000000000000) :
    encodedSize message = sizeByBits message := by
  have hsum : encodedSize message =
      (kind.fields.map fun field => fieldSize field (message.values field.number)).sum := by
    rw [encodedSize, List.sum, List.foldr_map]
  rw [hsum, sizeByBits]
  refine congrArg List.sum (List.map_congr_left fun field hfield => ?_)
  have hvalues : ∀ value ∈ message.values field.number,
      value.utf8ByteSize < 0x10000000000000000 := by
    intro value hvalue
    have hentry : (field, value) ∈ message.entries :=
      Message.mem_entries_iff.mpr ⟨hfield, hvalue⟩
    exact Nat.lt_trans (utf8ByteSize_lt_encodedSize hentry) h
  rw [fieldSize, size_key hfield, bodiesSize_eq_sum hvalues]

/-! ### Buffers -/

/-- A buffer of bytes. -/
structure Buffer where
  /-- The bytes that have been put into it. -/
  bytes : List UInt8
  /-- The number of bytes that there is room for. -/
  room : Nat
  deriving DecidableEq, Repr

namespace Buffer

/-- The buffer with one more byte, unless there is no room for it. -/
def put? (buffer : Buffer) (byte : UInt8) : Option Buffer :=
  match buffer.room with
  | 0 => none
  | room + 1 => some ⟨buffer.bytes ++ [byte], room⟩

/-- The buffer with more bytes, which are put one by one. -/
def putAll? (buffer : Buffer) (bytes : List UInt8) : Option Buffer :=
  bytes.foldlM put? buffer

/-- The buffer with the key, the length and the bytes of one value. -/
def putEntry? (buffer : Buffer) (entry : Field × String) : Option Buffer := do
  let keyed ← buffer.putAll? (Varint.encode (Key.value ⟨entry.1.number, .lengthDelimited⟩))
  let announced ← keyed.putAll? (Varint.encode entry.2.utf8ByteSize)
  announced.putAll? (Utf8.encode entry.2.toList)

/-- The buffer with the values of a message. -/
def putMessage? (buffer : Buffer) (message : Message kind) : Option Buffer :=
  message.entries.foldlM putEntry? buffer

variable {buffer after : Buffer}

/-- Bytes that are put one after the other may be put in two steps. -/
theorem putAll?_append (first second : List UInt8) :
    buffer.putAll? (first ++ second) =
      (buffer.putAll? first).bind fun between => between.putAll? second :=
  List.foldlM_append

/-- Bytes are put into a buffer exactly if it has room for all of them. Induction on the
bytes. -/
theorem putAll?_eq_some_iff {bytes : List UInt8} :
    buffer.putAll? bytes = some after ↔
      after.bytes = buffer.bytes ++ bytes ∧ after.room + bytes.length = buffer.room := by
  induction bytes generalizing buffer with
  | nil =>
      obtain ⟨written, room⟩ := buffer
      obtain ⟨written', room'⟩ := after
      simp [putAll?, eq_comm]
  | cons byte bytes ih =>
      obtain ⟨written, room⟩ := buffer
      rw [putAll?, List.foldlM_cons]
      cases room with
      | zero => simp [put?]
      | succ room =>
          have hrest := @ih ⟨written ++ [byte], room⟩
          rw [putAll?] at hrest
          simp only [put?, Option.bind_eq_bind, Option.bind_some, hrest, List.append_assoc,
            List.singleton_append, List.length_cons, ← Nat.add_assoc, Nat.add_right_cancel_iff]

/-- To put an entry is to put the bytes that it is encoded as. -/
theorem putEntry?_eq (entry : Field × String) :
    buffer.putEntry? entry = buffer.putAll? (encodeEntry entry.1 entry.2) := by
  rw [encodeEntry, putAll?_append]
  simp only [putAll?_append, Utf8.length_encode_toList]
  rfl

/-- The bytes that are put for a message are those that are written for it. -/
theorem putMessage?_eq (message : Message kind) :
    buffer.putMessage? message = buffer.putAll? (encode message) := by
  rw [putMessage?, encode]
  induction message.entries generalizing buffer with
  | nil => rfl
  | cons entry entries ih =>
      rw [List.foldlM_cons, List.flatMap_cons, putAll?_append, putEntry?_eq]
      exact congrArg _ (funext fun between => ih)

end Buffer

/-! ### Encoding within a capacity -/

/-- What is written before the values of a message: its size, if the message is delimited. -/
def lengthPrefix (delimited : Bool) (message : Message kind) : List UInt8 :=
  if delimited then Varint.encode (encodedSize message) else []

/-- The number of bytes that a message and what is written before it take. -/
def requiredSize (delimited : Bool) (message : Message kind) : Nat :=
  encodedSize message + (lengthPrefix delimited message).length

/-- The buffer with a message, behind its size if it is delimited. -/
def Buffer.write? (buffer : Buffer) (delimited : Bool) (message : Message kind) :
    Option Buffer := do
  let started ← buffer.putAll? (lengthPrefix delimited message)
  started.putMessage? message

/-- A message is put into a buffer exactly if the required size fits. -/
theorem Buffer.write?_eq_some_iff {buffer after : Buffer} {delimited : Bool}
    {message : Message kind} :
    buffer.write? delimited message = some after ↔
      after.bytes = buffer.bytes ++ (lengthPrefix delimited message ++ encode message) ∧
        after.room + requiredSize delimited message = buffer.room := by
  have hall : buffer.write? delimited message =
      buffer.putAll? (lengthPrefix delimited message ++ encode message) := by
    rw [putAll?_append, write?]
    exact congrArg _ (funext fun started => putMessage?_eq message)
  rw [hall, putAll?_eq_some_iff, List.length_append, length_encode, requiredSize, Nat.add_comm
    (encodedSize message)]

/-- Encoding within a capacity succeeds exactly if there is room for all bytes, and then it gives
them and the room that is left. -/
theorem encodeWithin_eq (capacity : Nat) (delimited : Bool) (message : Message kind) :
    encodeWithin capacity delimited message =
      if capacity < requiredSize delimited message then
        .error ⟨requiredSize delimited message, capacity⟩
      else
        .ok (lengthPrefix delimited message ++ encode message,
          capacity - requiredSize delimited message) := by
  cases delimited with
  | false =>
      simp only [encodeWithin, requiredSize, lengthPrefix, Bool.false_eq_true, if_false,
        List.length_nil, Nat.add_zero, List.nil_append, length_encode]
  | true =>
      simp only [encodeWithin, requiredSize, lengthPrefix, if_true, encodeDelimited,
        List.length_append, length_encode, Varint.length_encode,
        Nat.add_comm (encodedSize message)]

/-- The size that is required of a delimited message, in closed form. -/
theorem requiredSize_true {message : Message kind}
    (h : encodedSize message < 0x10000000000000000) :
    requiredSize true message = encodedSize message + Varint.sizeByBits (encodedSize message) := by
  rw [requiredSize, lengthPrefix, if_pos rfl, Varint.length_encode, Varint.size_eq_sizeByBits h]

/-- **A buffer never overruns.** The computed size of a message is the number of its bytes, and if
it has at most 64 bits then the closed form gives it too, and that of what is written before it.
So a message is encoded into a buffer,
with or without its size before it, exactly if there is room for all the bytes. Then putting them
one by one succeeds, the buffer holds just these bytes, and the rest of its room is left. If there
is too little room then the error says how much is required and how much there is, and putting the
bytes all the same would overrun the buffer. -/
theorem encodeWithin_exact {kind : Kind} (message : Message kind) :
    encodedSize message = (encode message).length ∧
    (encodedSize message < 0x10000000000000000 →
      encodedSize message = sizeByBits message ∧
      requiredSize true message =
        encodedSize message + Varint.sizeByBits (encodedSize message)) ∧
    ∀ capacity delimited,
      (requiredSize delimited message ≤ capacity →
        ∃ left, requiredSize delimited message + left = capacity ∧
          encodeWithin capacity delimited message =
            .ok (lengthPrefix delimited message ++ encode message, left) ∧
          (Buffer.mk [] capacity).write? delimited message =
            some ⟨lengthPrefix delimited message ++ encode message, left⟩) ∧
      (capacity < requiredSize delimited message →
        encodeWithin capacity delimited message =
            .error ⟨requiredSize delimited message, capacity⟩ ∧
          (Buffer.mk [] capacity).write? delimited message = none) := by
  refine ⟨(length_encode message).symm,
    fun h => ⟨encodedSize_eq_sizeByBits h, requiredSize_true h⟩, fun capacity delimited => ?_⟩
  rw [encodeWithin_eq]
  constructor
  · intro hfits
    refine ⟨capacity - requiredSize delimited message, by omega,
      if_neg (Nat.not_lt_of_le hfits), ?_⟩
    exact Buffer.write?_eq_some_iff.mpr ⟨rfl, Nat.sub_add_cancel hfits⟩
  · intro hshort
    refine ⟨if_pos hshort, Option.eq_none_iff_forall_ne_some.mpr fun after hwrite => ?_⟩
    obtain ⟨-, hroom⟩ := Buffer.write?_eq_some_iff.mp hwrite
    have hroom : after.room + requiredSize delimited message = capacity := hroom
    omega

/-- A message of twelve bytes fits into thirteen together with its size, and not into twelve. -/
theorem encodeWithin_exact_model :
    @encodedSize .model ⟨["größe"], ["a"]⟩ = @sizeByBits .model ⟨["größe"], ["a"]⟩ ∧
      @requiredSize .model true ⟨["größe"], ["a"]⟩ = 12 + Varint.sizeByBits 12 ∧
      (∃ left, 13 + left = 13 ∧
        @encodeWithin .model 13 true ⟨["größe"], ["a"]⟩ =
          .ok (0x0c :: @encode .model ⟨["größe"], ["a"]⟩, left) ∧
        @Buffer.write? .model ⟨[], 13⟩ true ⟨["größe"], ["a"]⟩ =
          some ⟨0x0c :: @encode .model ⟨["größe"], ["a"]⟩, left⟩) ∧
      @encodeWithin .model 12 true ⟨["größe"], ["a"]⟩ = .error ⟨13, 12⟩ ∧
        @Buffer.write? .model ⟨[], 12⟩ true ⟨["größe"], ["a"]⟩ = none := by
  obtain ⟨-, hclosed, hwithin⟩ := @encodeWithin_exact .model ⟨["größe"], ["a"]⟩
  obtain ⟨hsum, hrequired⟩ := hclosed (by decide +kernel)
  have htwelve : @encodedSize .model ⟨["größe"], ["a"]⟩ = 12 := by decide +kernel
  have hsize : @requiredSize .model true ⟨["größe"], ["a"]⟩ = 13 := by decide +kernel
  have hstart : @lengthPrefix .model true ⟨["größe"], ["a"]⟩ = [0x0c] := by decide +kernel
  have hfits := (hwithin 13 true).1
  have hshort := (hwithin 12 true).2
  rw [hsize] at hfits hshort
  rw [hstart] at hfits
  rw [htwelve] at hrequired
  exact ⟨hsum, hrequired, hfits (Nat.le_refl 13), hshort (by decide)⟩

end Wire

end InferenceConfig
