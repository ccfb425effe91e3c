import InferenceConfig.Proofs.Wire.RoundTrip

/-!
# Retired Numbers

The number of a retired field is refused as soon as it is met in the key of a record, and
nowhere else. The record must be one of the document itself: in the members of a group such
a number is skipped like any other. What comes before the record must be accepted, and what
comes behind its key is not looked at.

No document with such a record is accepted, however its key is spelled and wherever the
record stands. A key of more than 32 bits is refused before its number is looked at, so it
does not stand for any field.

## Main results

* `Wire.readRecord_eq_reservedError_iff` — the records that are refused for their number;
* `Wire.number_notMem_reserved_of_reads` — what is accepted has no such record, in whatever
  way the input is cut into records;
* `Wire.decode_reservedField` — which documents are refused for a retired number.
-/

namespace InferenceConfig

namespace Wire

variable {kind : Kind} {budget : Nat}

/-- A record is refused for its number exactly if its first bytes spell a key with that
number and the number is retired. -/
theorem readRecord_eq_reservedError_iff {bytes : List UInt8} {number : Nat} :
    readRecord kind budget bytes = .error (reservedError kind number) ↔
      ∃ start after wireType, bytes = start ++ after ∧
        Key.IsSpelling start ⟨number, wireType⟩ ∧ number ∈ kind.reserved := by
  constructor
  · intro h
    obtain ⟨-, ⟨⟨found, wireType⟩, start, after, hbytes, hstart, hreserved, he⟩ | hfault⟩ :=
      error_of_readRecord h
    · simp only [reservedError, DecodeError.mk.injEq, Fault.reserved.injEq, true_and] at he
      subst he
      exact ⟨start, after, wireType, hbytes, hstart, hreserved⟩
    · simp [reservedError, Fault.isReserved] at hfault
  · rintro ⟨start, after, wireType, rfl, hstart, hreserved⟩
    simp only [readRecord, hstart.read after]
    rw [readBody, if_pos (Kind.isReserved_iff.mpr hreserved)]
    rfl

/-- An accepted document has no record with a retired number, in whatever way its bytes are
cut into complete records: it is cut in one way only. -/
theorem number_notMem_reserved_of_reads {segments found : List Segment}
    {records : List Record} {key : Key} {start after : List UInt8}
    (hcomplete : ∀ segment ∈ segments, segment.IsComplete)
    (hstart : Key.IsSpelling start key)
    (hreads : List.Forall₂ (Segment.Reads kind budget) found records)
    (happend : segments.flatMap Segment.bytes ++ (start ++ after) =
      found.flatMap Segment.bytes) : key.number ∉ kind.reserved := by
  obtain ⟨later, rfl, hlater⟩ := Segment.exists_append_of_flatMap_append hcomplete
    (isComplete_of_reads hreads) happend
  -- The key is that of the first record behind those that are known to be complete.
  cases later with
  | nil => exact absurd (List.append_eq_nil_iff.mp hlater.symm).1 hstart.ne_nil
  | cons first later =>
      obtain ⟨record, hfirst⟩ :=
        exists_reads_of_mem hreads (List.mem_append_right segments List.mem_cons_self)
      rw [List.flatMap_cons, Segment.bytes, List.append_assoc] at hlater
      obtain ⟨rfl, -, -⟩ := hfirst.start.append_inj hstart hlater
      exact hfirst.number_notMem_reserved

/-- A key of more than 32 bits behind an accepted document is refused, with its value. -/
theorem decode_append_of_value_le {before start after : List UInt8} {message : Message kind}
    {value : Nat} (hbefore : decode kind before = .ok message)
    (hstart : Varint.IsSpelling start value) (hvalue : 0x100000000 ≤ value) :
    decode kind (before ++ (start ++ after)) =
      .error (.decode { kind, fault := .invalidKey value }) := by
  have hrecord : readRecord kind nestingBudget (start ++ after) =
      .error { kind, fault := .invalidKey value } := by
    simp only [readRecord, Key.read, hstart.read? after, Key.ofValue, if_pos hvalue]
  have hne : start ++ after ≠ [] := fun hnil =>
    hstart.ne_nil (List.append_eq_nil_iff.mp hnil).1
  rw [decode_eq_decode_iff_read, read_eq_error_iff_append]
  refine ⟨⟨before, _, rfl, ⟨message, hbefore⟩, hne, hrecord⟩, fun number he => ?_⟩
  simp [reservedError] at he

/-- **Retired numbers are refused exactly where they are met.** Decoding refuses a document
for a retired number exactly if the key with that number, in any spelling, stands behind a
document that is accepted, whatever follows it. So no document with such a key among its
records is accepted, a key of more than 32 bits never passes for a smaller one, and no
message is written as a document that is refused for a retired number. -/
theorem decode_reservedField (kind : Kind) :
    (∀ bytes number, decode kind bytes = .error (.reservedField kind number) ↔
      ∃ before start after wireType, bytes = before ++ (start ++ after) ∧
        (∃ message, decode kind before = .ok message) ∧
        Key.IsSpelling start ⟨number, wireType⟩ ∧ number ∈ kind.reserved) ∧
    (∀ (segments : List Segment) start key after message,
      (∀ segment ∈ segments, segment.IsComplete) → Key.IsSpelling start key →
      key.number ∈ kind.reserved →
      decode kind (segments.flatMap Segment.bytes ++ (start ++ after)) ≠ .ok message) ∧
    (∀ before message start value after, decode kind before = .ok message →
      Varint.IsSpelling start value → 0x100000000 ≤ value →
      decode kind (before ++ (start ++ after)) =
        .error (.decode { kind, fault := .invalidKey value })) ∧
    (∀ (message : Message kind) number,
      decode kind (encode message) ≠ .error (.reservedField kind number)) := by
  refine ⟨fun bytes number => ?_, ?_, ?_, ?_⟩
  · rw [decode_eq_reservedField_iff_read, read_eq_error_iff_append]
    simp only [readRecord_eq_reservedError_iff, true_and]
    constructor
    · rintro ⟨before, _, hbytes, hbefore, -, start, after, wireType, rfl, hstart, hreserved⟩
      exact ⟨before, start, after, wireType, hbytes, hbefore, hstart, hreserved⟩
    · rintro ⟨before, start, after, wireType, hbytes, hbefore, hstart, hreserved⟩
      exact ⟨before, _, hbytes, hbefore, by simp [hstart.ne_nil],
        start, after, wireType, rfl, hstart, hreserved⟩
  · intro segments start key after message hcomplete hstart hreserved hdecode
    obtain ⟨found, records, happend, hreads, -⟩ := decode_eq_ok_iff.mp hdecode
    exact number_notMem_reserved_of_reads hcomplete hstart hreads happend hreserved
  · intro before message start value after hbefore hstart hvalue
    exact decode_append_of_value_le hbefore hstart hvalue
  · intro message number hdecode
    obtain ⟨-, hread⟩ := decode_eq_reservedField_iff_read.mp hdecode
    obtain ⟨records, hreading⟩ := read_eq_error_iff.mp hread
    rw [encode_eq] at hreading
    have hfault := fault_of_readUntil_entries
      (fun entry hentry => Message.mem_fields_of_mem_entries hentry)
      (congrArg Reading.error? hreading)
    simp [reservedError] at hfault

/-- A group with a member whose number is 1 is skipped. The same number behind the group is
refused, though its key takes two bytes more than it needs, and no key of 36 bits passes for
it. -/
theorem decode_reservedField_behind_group :
    decode .model ([0x3b, 0x08, 0x05, 0x3c] ++ ([0x88, 0x80, 0x00] ++ [0xff])) =
        .error (.reservedField .model 1) ∧
      decode .model ([0x3b, 0x08, 0x05, 0x3c] ++ ([0x88, 0x80, 0x00] ++ [0x01])) ≠
        .ok ⟨[], []⟩ ∧
      decode .model ([0x3b, 0x08, 0x05, 0x3c] ++
          ([0x88, 0x80, 0x80, 0x80, 0x80, 0x01] ++ [0x01])) =
        .error (.decode { kind := .model, fault := .invalidKey 0x800000008 }) := by
  obtain ⟨hrefused, hcomplete, hlarge, -⟩ := decode_reservedField .model
  have hgroup : decode .model [0x3b, 0x08, 0x05, 0x3c] = .ok ⟨[], []⟩ := by decide +kernel
  have hpadded : Key.IsSpelling [0x88, 0x80, 0x00] ⟨1, .varint⟩ :=
    ⟨⟨by simp, ⟨0x00, rfl, by decide, by decide⟩, by decide, rfl⟩, by decide, by decide⟩
  have hsegment : Segment.IsComplete ⟨⟨7, .startGroup⟩, [0x3b], [0x08, 0x05, 0x3c]⟩ := by
    have hstart : Key.IsSpelling [0x3b] ⟨7, .startGroup⟩ :=
      ⟨Varint.isSpelling_singleton (by decide), by decide, by decide⟩
    have hmember : Key.IsSpelling [0x08] ⟨1, .varint⟩ :=
      ⟨Varint.isSpelling_singleton (by decide), by decide, by decide⟩
    have hstop : Key.IsSpelling [0x3c] ⟨7, .endGroup⟩ :=
      ⟨Varint.isSpelling_singleton (by decide), by decide, by decide⟩
    have hbody : FlatBody .varint [0x05] :=
      .varint (Varint.isSpelling_singleton (by decide))
    exact ⟨hstart, _, .group (.cons hmember (.flat hbody) .nil) hstop⟩
  refine ⟨?_, ?_, ?_⟩
  · exact (hrefused _ 1).mpr
      ⟨_, _, [0xff], .varint, rfl, ⟨_, hgroup⟩, hpadded, by decide⟩
  · exact hcomplete [⟨⟨7, .startGroup⟩, [0x3b], [0x08, 0x05, 0x3c]⟩] _ ⟨1, .varint⟩ [0x01]
      ⟨[], []⟩ (by simpa using hsegment) hpadded (by decide)
  · have hspelling : Varint.IsSpelling [0x88, 0x80, 0x80, 0x80, 0x80, 0x01] 0x800000008 :=
      ⟨by simp, ⟨0x01, rfl, by decide, by decide⟩, by decide, rfl⟩
    exact hlarge _ _ _ _ [0x01] hgroup hspelling (by decide)

end Wire

end InferenceConfig
