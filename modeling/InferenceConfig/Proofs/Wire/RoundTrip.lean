import InferenceConfig.Proofs.Wire.Acceptance
import InferenceConfig.Wire.Encode

/-!
# Reading What Was Written

What is written for a message is a sequence of segments, one for each entry. A kind accepts
all of them, and they add the entries of the message to it, so the message is read back.
The size that is computed without writing is the number of bytes that are written, and so
the message is also read back from behind its length, whatever follows it.

Lengths are written as numbers of any size and read as numbers of 64 bits. A value of more
bytes than that is written, but it is not read back.

## Main definitions

* `Wire.Segment.ofEntry` — the segment that is written for an entry.

## Main results

* `Wire.reads_entries`, `Wire.readUntil_entries_of_long` — what is written is read as the
  entries, unless a length has more than 64 bits, which is the only fault in it;
* `Wire.length_encode` — the computed size is the number of bytes;
* `Wire.readDelimited_encodeDelimited_iff` — when a message is read back from behind its
  length;
* `Wire.encode_roundtrip` — a message is read back, in each of the three ways of reading it.
-/

namespace InferenceConfig

namespace Wire

/-- The segment that is written for an entry. -/
def Segment.ofEntry (entry : Field × String) : Segment where
  key := ⟨entry.1.number, .lengthDelimited⟩
  start := Varint.encode (Key.value ⟨entry.1.number, .lengthDelimited⟩)
  body := Varint.encode (Utf8.encode entry.2.toList).length ++ Utf8.encode entry.2.toList

variable {kind : Kind} {budget : Nat}

/-! ### Entries as segments -/

/-- A message is encoded as the segments of its entries. -/
theorem encode_eq (message : Message kind) :
    encode message = (message.entries.map Segment.ofEntry).flatMap Segment.bytes := by
  rw [List.flatMap_map]
  rfl

/-- The first bytes of an entry spell its key. -/
theorem isSpelling_start_ofEntry {entry : Field × String} (h : entry.1 ∈ kind.fields) :
    Key.IsSpelling (Segment.ofEntry entry).start ⟨entry.1.number, .lengthDelimited⟩ := by
  obtain ⟨hpos, hlt⟩ := Kind.number_pos_and_lt h
  refine Key.isSpelling_encode ?_ hpos
  simp only [Key.value, WireType.code]
  omega

/-- An entry whose length has at most 64 bits is read as what it is. -/
theorem reads_ofEntry {entry : Field × String} (hfield : entry.1 ∈ kind.fields)
    (hsize : entry.2.utf8ByteSize < 0x10000000000000000) :
    (Segment.ofEntry entry).Reads kind budget (.stored entry.1 entry.2) := by
  rw [← Utf8.length_encode_toList] at hsize
  exact .stored hfield (isSpelling_start_ofEntry hfield) (Varint.isSpelling_encode hsize)

/-- An entry whose length has more than 64 bits is at fault: its length is not read. -/
theorem readRecord_ofEntry_of_le {entry : Field × String} (hfield : entry.1 ∈ kind.fields)
    (hsize : 0x10000000000000000 ≤ entry.2.utf8ByteSize) (rest : List UInt8) :
    readRecord kind budget ((Segment.ofEntry entry).bytes ++ rest) =
      .error { kind, field? := some entry.1, fault := .invalidVarint } := by
  rw [← Utf8.length_encode_toList] at hsize
  have hread := Varint.read?_encode_eq_none (Utf8.encode entry.2.toList ++ rest) hsize
  have hreserved := Kind.number_notMem_reserved hfield
  rw [Segment.bytes, List.append_assoc]
  simp only [readRecord, (isSpelling_start_ofEntry hfield).read]
  rw [readBody, if_neg (by rwa [Kind.isReserved_iff]),
    Kind.fieldWithNumber?_eq_some_iff.mpr ⟨hfield, rfl⟩]
  simp only [readString, Segment.ofEntry, List.append_assoc, hread]
  rfl

/-- Entries are what is read from their segments. -/
theorem reads_map_ofEntry {entries : List (Field × String)}
    (hfields : ∀ entry ∈ entries, entry.1 ∈ kind.fields)
    (hsizes : ∀ entry ∈ entries, entry.2.utf8ByteSize < 0x10000000000000000) :
    List.Forall₂ (Segment.Reads kind budget) (entries.map Segment.ofEntry)
      (entries.map fun entry => Record.stored entry.1 entry.2) := by
  rw [List.forall₂_map_left_iff, List.forall₂_map_right_iff, List.forall₂_same]
  intro entry hentry
  exact reads_ofEntry (hfields entry hentry) (hsizes entry hentry)

/-- The entries of a message are what is read from their segments. -/
theorem reads_entries {message : Message kind}
    (h : ∀ entry ∈ message.entries, entry.2.utf8ByteSize < 0x10000000000000000) :
    List.Forall₂ (Segment.Reads kind budget) (message.entries.map Segment.ofEntry)
      (message.entries.map fun entry => Record.stored entry.1 entry.2) :=
  reads_map_ofEntry (fun _ hentry => Message.mem_fields_of_mem_entries hentry) h

/-- The entries of a message make up the message. -/
theorem addAll_entries (message : Message kind) :
    addAll (Message.empty kind)
      (message.entries.map fun entry => Record.stored entry.1 entry.2) = message := by
  rw [addAll, List.foldl_map]
  exact Message.foldl_addEntry_entries message

/-- Entries of which one has a length of more than 64 bits are refused for it, whatever
follows. Induction on the entries: those before the first such length are read one by one. -/
theorem readUntil_entries_of_long {entries : List (Field × String)}
    (hfields : ∀ entry ∈ entries, entry.1 ∈ kind.fields)
    (hlong : ¬ ∀ entry ∈ entries, entry.2.utf8ByteSize < 0x10000000000000000)
    (rest : List UInt8) :
    ∃ found field, readUntil kind 0 budget
        ((entries.map Segment.ofEntry).flatMap Segment.bytes ++ rest) =
      ⟨found, some { kind, field? := some field, fault := .invalidVarint }⟩ := by
  induction entries with
  | nil => simp at hlong
  | cons entry entries ih =>
      obtain ⟨hfield, hfields⟩ := List.forall_mem_cons.mp hfields
      rw [List.map_cons, List.flatMap_cons, List.append_assoc]
      have hpos := Nat.zero_lt_of_lt
        (Segment.length_lt_length_append (isSpelling_start_ofEntry hfield)
          ((entries.map Segment.ofEntry).flatMap Segment.bytes ++ rest))
      by_cases hsize : entry.2.utf8ByteSize < 0x10000000000000000
      · have hlater : ¬ ∀ entry ∈ entries, entry.2.utf8ByteSize < 0x10000000000000000 :=
          fun hall => hlong (List.forall_mem_cons.mpr ⟨hsize, hall⟩)
        obtain ⟨found, field, hreading⟩ := ih hfields hlater
        rw [readUntil_of_ok hpos ((reads_ofEntry hfield hsize).readRecord _), hreading]
        exact ⟨_, field, rfl⟩
      · exact ⟨[], entry.1, readUntil_of_error hpos
          (readRecord_ofEntry_of_le hfield (Nat.le_of_not_lt hsize) _)⟩

/-- What is written is only refused for a length of more than 64 bits. -/
theorem fault_of_readUntil_entries {entries : List (Field × String)} {e : DecodeError}
    (hfields : ∀ entry ∈ entries, entry.1 ∈ kind.fields)
    (h : (readUntil kind 0 budget
      ((entries.map Segment.ofEntry).flatMap Segment.bytes)).error? = some e) :
    e.fault = .invalidVarint := by
  by_cases hsizes : ∀ entry ∈ entries, entry.2.utf8ByteSize < 0x10000000000000000
  · rw [readUntil_eq_none_iff.mpr ⟨_, rfl, reads_map_ofEntry hfields hsizes⟩] at h
    simp at h
  · obtain ⟨found, field, hreading⟩ := readUntil_entries_of_long hfields hsizes []
    rw [List.append_nil] at hreading
    rw [hreading] at h
    rw [← Option.some.inj h]

/-! ### The size of a message -/

/-- The size of an entry: its key, the length of its value, and the value. -/
theorem length_encodeEntry (field : Field) (value : String) :
    (encodeEntry field value).length =
      Varint.size (Key.value ⟨field.number, .lengthDelimited⟩) +
        (Varint.size value.utf8ByteSize + value.utf8ByteSize) := by
  simp only [encodeEntry, List.length_append, Varint.length_encode,
    Utf8.length_encode_toList]

/-- The size of a field is that of its entries. -/
theorem length_flatMap_encodeEntry (field : Field) (values : List String) :
    (values.flatMap (encodeEntry field)).length = fieldSize field values := by
  induction values with
  | nil => rfl
  | cons value values ih =>
      rw [List.flatMap_cons, List.length_append, ih, length_encodeEntry]
      simp only [fieldSize, bodiesSize, List.length_cons, Nat.mul_succ]
      omega

/-- The computed size is the number of bytes that are written. -/
theorem length_encode (message : Message kind) :
    (encode message).length = encodedSize message := by
  rw [encode, Message.entries, encodedSize]
  induction kind.fields with
  | nil => rfl
  | cons field fields ih =>
      rw [List.flatMap_cons, List.flatMap_append, List.length_append, ih, List.foldr_cons,
        List.flatMap_map, ← length_flatMap_encodeEntry]

/-! ### Reading back -/

/-- What is written for a message is decoded as that message, if its lengths have at most 64
bits. -/
theorem decode_encode {message : Message kind}
    (h : ∀ entry ∈ message.entries, entry.2.utf8ByteSize < 0x10000000000000000) :
    decode kind (encode message) = .ok message :=
  decode_eq_ok_iff.mpr ⟨_, _, encode_eq message, reads_entries h, addAll_entries message⟩

/-- The records of what is written, followed by what is read behind them. -/
theorem readUntil_encode_append {message : Message kind} {limit : Nat} {rest : List UInt8}
    (h : ∀ entry ∈ message.entries, entry.2.utf8ByteSize < 0x10000000000000000)
    (hlimit : limit ≤ rest.length) :
    readUntil kind limit budget (encode message ++ rest) =
      ⟨(message.entries.map fun entry => Record.stored entry.1 entry.2) ++
          (readUntil kind limit budget rest).records,
        (readUntil kind limit budget rest).error?⟩ := by
  rw [encode_eq]
  exact readUntil_flatMap_append (reads_entries h) hlimit

/-- Every value of a message is shorter than the message. -/
theorem utf8ByteSize_lt_encodedSize {message : Message kind} {entry : Field × String}
    (h : entry ∈ message.entries) : entry.2.utf8ByteSize < encodedSize message := by
  obtain ⟨before, after, hentries⟩ := List.append_of_mem h
  have hkey := List.length_pos_iff.mpr
    (isSpelling_start_ofEntry (Message.mem_fields_of_mem_entries h)).ne_nil
  rw [← length_encode, encode_eq, hentries]
  simp only [List.map_append, List.map_cons, List.flatMap_append, List.flatMap_cons,
    List.length_append, Segment.bytes, ← Utf8.length_encode_toList]
  simp only [Segment.ofEntry, List.length_append] at hkey ⊢
  omega

/-- Behind its length a message is read back exactly if the length has at most 64 bits,
whatever follows the message. -/
theorem readDelimited_encodeDelimited_iff {message : Message kind} {rest : List UInt8} :
    readDelimited kind (encodeDelimited message ++ rest) = .ok message ↔
      encodedSize message < 0x10000000000000000 := by
  rw [readDelimited, encodeDelimited, mergeDelimited, List.append_assoc]
  by_cases hsize : encodedSize message < 0x10000000000000000
  · have hvalues : ∀ entry ∈ message.entries,
        entry.2.utf8ByteSize < 0x10000000000000000 := fun entry hentry =>
      Nat.lt_trans (utf8ByteSize_lt_encodedSize hentry) hsize
    have hlength : (encode message ++ rest).length = encodedSize message + rest.length := by
      rw [List.length_append, length_encode]
    simp only [Varint.read?_encode (encode message ++ rest) hsize]
    rw [hlength, if_neg (by omega), Nat.add_sub_cancel_left, mergeUntil_eq,
      readUntil_encode_append hvalues (Nat.le_refl _), readUntil_length, List.append_nil,
      addAll_entries]
    exact iff_of_true rfl hsize
  · have hread := Varint.read?_encode_eq_none (encode message ++ rest)
      (Nat.le_of_not_lt hsize)
    simp only [hread]
    exact iff_of_false (by simp [Merged.toExcept]) hsize

/-- **A message is read back.** Whatever its values are, if each of them has a length of at
most 64 bits then decoding and merging give the message again, and every list keeps its
order and its repetitions. Behind its length the message is read back as well, whatever
follows it. That is so exactly if the length has at most 64 bits, as it has for all messages
that a memory can hold. -/
theorem encode_roundtrip {kind : Kind} (message : Message kind)
    (h : ∀ entry ∈ message.entries, entry.2.utf8ByteSize < 0x10000000000000000) :
    decode kind (encode message) = .ok message ∧
      read kind (encode message) = .ok message ∧
      ∀ rest, readDelimited kind (encodeDelimited message ++ rest) = .ok message ↔
        encodedSize message < 0x10000000000000000 := by
  have hdecode : decode kind (encode message) = .ok message := decode_encode h
  exact ⟨hdecode, decode_eq_ok_iff_read.mp hdecode,
    fun _ => readDelimited_encodeDelimited_iff⟩

/-- A message with an empty value, a repeated one and characters of two bytes is read back,
also from behind its length and before a byte that starts no record. -/
theorem encode_roundtrip_model :
    decode .model (@encode .model ⟨["", "serving"], ["größe", "größe"]⟩) =
        .ok ⟨["", "serving"], ["größe", "größe"]⟩ ∧
      readDelimited .model
          (@encodeDelimited .model ⟨["", "serving"], ["größe", "größe"]⟩ ++ [0xff]) =
        .ok ⟨["", "serving"], ["größe", "größe"]⟩ := by
  have hvalues : ∀ entry ∈ @Message.entries .model ⟨["", "serving"], ["größe", "größe"]⟩,
      entry.2.utf8ByteSize < 0x10000000000000000 := by decide
  have hsize : @encodedSize .model ⟨["", "serving"], ["größe", "größe"]⟩ <
      0x10000000000000000 := by decide +kernel
  obtain ⟨hdecode, -, hdelimited⟩ := encode_roundtrip _ hvalues
  exact ⟨hdecode, (hdelimited [0xff]).mpr hsize⟩

end Wire

end InferenceConfig
