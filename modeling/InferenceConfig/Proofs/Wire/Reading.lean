import InferenceConfig.Proofs.Message
import InferenceConfig.Proofs.Wire.Segment
import Mathlib.Data.List.Forall2

/-!
# Reading Without a Message

Merging reads records and adds them to a message on the way. What is read does not depend
on the message, so the reading is split off: `readUntil` reads records up to the first
fault, and merging only adds its records to the message that it starts from.

The reading itself is described by the segments of the input. The records that are read
come from segments that the kind accepts, and what is left of the input is either all that
should be left, or begins with the fault.

## Main definitions

* `Wire.Reading`, `Wire.readUntil` — the records of an input, up to the first fault;
* `Wire.addAll` — the message with what records add to it.

## Main results

* `Wire.mergeUntil_eq`, `Wire.mergeDelimited_of_isSpelling` — merging adds the records of
  the reading, and behind a length it is the same merging with less to read;
* `Wire.read_eq_ok_iff`, `Wire.read_eq_error_iff` — the outcome of merging, in terms of the
  reading;
* `Wire.readUntil_flatMap_append` — segments that the kind accepts are read one by one,
  whatever follows them;
* `Wire.exists_segments` — every input is such segments and a rest that is not read;
* `Wire.readUntil_eq_none_iff`, `Wire.readUntil_eq_some_iff` — the reading is complete
  exactly on such segments alone, and ends exactly at the first record with a fault;
* `Wire.readUntil_append_eq_none_iff` — whether the reading is complete does not depend on
  bytes that should be left;
* `Wire.values_addAll` — every list grows by the values of its own records, in order.
-/

namespace InferenceConfig

namespace Wire

/-- What is read from an input. -/
structure Reading where
  /-- The records before the first fault. -/
  records : List Record
  /-- The fault that ended the reading, if any. -/
  error? : Option DecodeError

/-- Reads records until at most `limit` bytes are left; fewer than that are a fault. -/
def readUntil (kind : Kind) (limit budget : Nat) (bytes : List UInt8) : Reading :=
  if bytes.length ≤ limit then
    if bytes.length = limit then { records := [], error? := none }
    else { records := [], error? := some { kind, fault := .delimitedLengthExceeded } }
  else
    match _h : readRecord kind budget bytes with
    | .error e => { records := [], error? := some e }
    | .ok (record, rest) =>
      let later := readUntil kind limit budget rest
      { later with records := record :: later.records }
termination_by bytes.length
decreasing_by exact length_of_readRecord _h

section

variable {kind : Kind}

/-- The message with what all the records add to it. -/
def addAll (message : Message kind) (records : List Record) : Message kind :=
  records.foldl Record.addTo message

end

/-! ### Merging is reading -/

section

variable {kind : Kind} {limit budget : Nat}

/-- To merge a record is to read it, and then to add what it comes to. -/
theorem mergeRecord_eq (message : Message kind) (bytes : List UInt8) :
    mergeRecord budget message bytes = addOutcome message (readRecord kind budget bytes) := by
  rw [mergeRecord, readRecord]
  cases Key.read bytes with
  | error fault => rfl
  | ok result => exact mergeField_eq_addOutcome budget message result.1 result.2

/-- A record is at fault exactly if it cannot be read, and it leaves the message as it was. -/
theorem mergeRecord_eq_error_iff {message merged : Message kind} {bytes : List UInt8}
    {e : DecodeError} :
    mergeRecord budget message bytes = (.error e, merged) ↔
      readRecord kind budget bytes = .error e ∧ merged = message := by
  rw [mergeRecord_eq, addOutcome_eq_error_iff]

/-- A record is merged exactly if it can be read, and it adds what it comes to. -/
theorem mergeRecord_eq_ok_iff {message merged : Message kind} {bytes rest : List UInt8} :
    mergeRecord budget message bytes = (.ok rest, merged) ↔
      ∃ record, readRecord kind budget bytes = .ok (record, rest) ∧
        record.addTo message = merged := by
  rw [mergeRecord_eq, addOutcome_eq_ok_iff]

/-- One step of reading, once the record is read. -/
theorem readUntil_of_ok {record : Record} {bytes rest : List UInt8}
    (hlimit : limit < bytes.length)
    (hread : readRecord kind budget bytes = .ok (record, rest)) :
    readUntil kind limit budget bytes =
      ⟨record :: (readUntil kind limit budget rest).records,
        (readUntil kind limit budget rest).error?⟩ := by
  rw [readUntil, if_neg (Nat.not_le_of_lt hlimit)]
  split
  · next h => simp [hread] at h
  · next h =>
      rw [hread, Except.ok.injEq, Prod.mk.injEq] at h
      obtain ⟨rfl, rfl⟩ := h
      rfl

/-- The last step of reading, at a fault. -/
theorem readUntil_of_error {e : DecodeError} {bytes : List UInt8}
    (hlimit : limit < bytes.length) (hread : readRecord kind budget bytes = .error e) :
    readUntil kind limit budget bytes = ⟨[], some e⟩ := by
  rw [readUntil, if_neg (Nat.not_le_of_lt hlimit)]
  split
  · next h =>
      rw [hread, Except.error.injEq] at h
      rw [h]
  · next h => simp [hread] at h

/-- The last step of reading, when nothing is left to read. -/
theorem readUntil_length (kind : Kind) (budget : Nat) (bytes : List UInt8) :
    readUntil kind bytes.length budget bytes = ⟨[], none⟩ := by
  rw [readUntil, if_pos (Nat.le_refl _), if_pos rfl]

/-- Merging adds the records that are read. Induction on the run of the merging. -/
theorem mergeUntil_eq (message : Message kind) (bytes : List UInt8) :
    mergeUntil limit budget message bytes =
      ⟨addAll message (readUntil kind limit budget bytes).records,
        (readUntil kind limit budget bytes).error?⟩ := by
  fun_induction mergeUntil limit budget message bytes with
  | case1 message bytes hle heq =>
      rw [readUntil, if_pos hle, if_pos heq]
      rfl
  | case2 message bytes hle hne =>
      rw [readUntil, if_pos hle, if_neg hne]
      rfl
  | case3 message bytes hlt e merged hmerge =>
      obtain ⟨hread, rfl⟩ := mergeRecord_eq_error_iff.mp hmerge
      rw [readUntil_of_error (Nat.lt_of_not_le hlt) hread]
      rfl
  | case4 message bytes hlt rest merged hmerge ih =>
      obtain ⟨record, hread, rfl⟩ := mergeRecord_eq_ok_iff.mp hmerge
      rw [ih, readUntil_of_ok (Nat.lt_of_not_le hlt) hread]
      rfl

/-- Behind its length a message is merged up to the bytes that follow it. -/
theorem mergeDelimited_of_isSpelling {message : Message kind} {n : Nat}
    {start bytes : List UInt8} (hstart : Varint.IsSpelling start n)
    (hlength : n ≤ bytes.length) :
    mergeDelimited message (start ++ bytes) =
      mergeUntil (bytes.length - n) (nestingBudget - 1) message bytes := by
  rw [mergeDelimited]
  simp only [hstart.read? bytes]
  rw [if_neg (Nat.not_lt_of_le hlength)]

/-- A run succeeds exactly if it ends with a message and no error beside it. -/
theorem toExcept_eq_ok_iff {merged : Merged kind} {message : Message kind} :
    merged.toExcept = .ok message ↔ merged = ⟨message, none⟩ := by
  obtain ⟨found, error?⟩ := merged
  cases error? with
  | none => simp [Merged.toExcept]
  | some e => simp [Merged.toExcept]

/-- Merging comes to its end exactly if all records are read, and it gives what they add. -/
theorem mergeUntil_eq_none_iff {message merged : Message kind} {bytes : List UInt8} :
    mergeUntil limit budget message bytes = ⟨merged, none⟩ ↔
      ∃ records, readUntil kind limit budget bytes = ⟨records, none⟩ ∧
        addAll message records = merged := by
  rw [mergeUntil_eq]
  cases readUntil kind limit budget bytes with
  | mk records error? => simp [and_comm]

/-- A message is read exactly if all records are read, and it is what they add. -/
theorem read_eq_ok_iff {bytes : List UInt8} {message : Message kind} :
    read kind bytes = .ok message ↔
      ∃ records, readUntil kind 0 nestingBudget bytes = ⟨records, none⟩ ∧
        addAll (Message.empty kind) records = message := by
  rw [read, toExcept_eq_ok_iff, merge, mergeUntil_eq_none_iff]

/-- No message is read exactly if the reading ends at a fault. -/
theorem read_eq_error_iff {bytes : List UInt8} {e : DecodeError} :
    read kind bytes = .error e ↔
      ∃ records, readUntil kind 0 nestingBudget bytes = ⟨records, some e⟩ := by
  rw [read, merge, mergeUntil_eq]
  cases readUntil kind 0 nestingBudget bytes with
  | mk records error? =>
      cases error? with
      | none => simp [Merged.toExcept]
      | some found => simp [Merged.toExcept]

/-! ### Segments of the input -/

/-- Each of the segments is read as some record. -/
theorem exists_reads_of_mem {segments : List Segment} {segment : Segment}
    {records : List Record} (h : List.Forall₂ (Segment.Reads kind budget) segments records)
    (hmem : segment ∈ segments) : ∃ record, segment.Reads kind budget record := by
  induction h with
  | nil => exact absurd hmem List.not_mem_nil
  | cons hsegment _ ih =>
      rcases List.mem_cons.mp hmem with rfl | hmem
      · exact ⟨_, hsegment⟩
      · exact ih hmem

/-- Segments that are read as records are complete. -/
theorem isComplete_of_reads {segments : List Segment} {records : List Record}
    (h : List.Forall₂ (Segment.Reads kind budget) segments records) :
    ∀ segment ∈ segments, segment.IsComplete := by
  intro segment hmem
  obtain ⟨record, hsegment⟩ := exists_reads_of_mem h hmem
  exact hsegment.isComplete

/-- Segments that the kind accepts are read one by one, whatever follows them. -/
theorem readUntil_flatMap_append {segments : List Segment} {records : List Record}
    (h : List.Forall₂ (Segment.Reads kind budget) segments records) {rest : List UInt8}
    (hlimit : limit ≤ rest.length) :
    readUntil kind limit budget (segments.flatMap Segment.bytes ++ rest) =
      ⟨records ++ (readUntil kind limit budget rest).records,
        (readUntil kind limit budget rest).error?⟩ := by
  induction h with
  | nil => rfl
  | @cons segment record segments records hsegment _ ih =>
      rw [List.flatMap_cons, List.append_assoc]
      have hlt := Segment.length_lt_length_append hsegment.start
        (segments.flatMap Segment.bytes ++ rest)
      rw [readUntil_of_ok ?_ (hsegment.readRecord _), ih]
      · rfl
      · rw [List.length_append] at hlt
        omega

/-- Every input is a sequence of segments that are read and a rest of which nothing is read.
Induction on the run of the reading. -/
theorem exists_segments (kind : Kind) (limit budget : Nat) (bytes : List UInt8) :
    ∃ segments rest, bytes = segments.flatMap Segment.bytes ++ rest ∧
      List.Forall₂ (Segment.Reads kind budget) segments
        (readUntil kind limit budget bytes).records ∧
      readUntil kind limit budget rest =
        ⟨[], (readUntil kind limit budget bytes).error?⟩ := by
  fun_induction readUntil kind limit budget bytes with
  | case1 bytes hle heq =>
      exact ⟨[], bytes, rfl, .nil, by rw [readUntil, if_pos hle, if_pos heq]⟩
  | case2 bytes hle hne =>
      exact ⟨[], bytes, rfl, .nil, by rw [readUntil, if_pos hle, if_neg hne]⟩
  | case3 bytes hlt e hread =>
      exact ⟨[], bytes, rfl, .nil, readUntil_of_error (Nat.lt_of_not_le hlt) hread⟩
  | case4 bytes hlt record tail hread later ih =>
      obtain ⟨segment, rfl, hsegment⟩ := readRecord_eq_ok_iff.mp hread
      obtain ⟨segments, rest, rfl, hsegments, hrest⟩ := ih
      refine ⟨segment :: segments, rest, ?_, .cons hsegment hsegments, hrest⟩
      rw [List.flatMap_cons, List.append_assoc]

/-- Nothing is read without a fault exactly if just as many bytes are there as should be
left. -/
theorem readUntil_eq_nil_none_iff {bytes : List UInt8} :
    readUntil kind limit budget bytes = ⟨[], none⟩ ↔ bytes.length = limit := by
  constructor
  · intro h
    by_contra hne
    rcases Nat.lt_or_gt_of_ne hne with hshort | hlong
    · rw [readUntil, if_pos (Nat.le_of_lt hshort), if_neg hne] at h
      simp at h
    · cases hread : readRecord kind budget bytes with
      | error e => simp [readUntil_of_error hlong hread] at h
      | ok result => simp [readUntil_of_ok hlong hread] at h
  · rintro rfl
    exact readUntil_length kind budget bytes

/-- Of an input that should be read to its end, nothing is read before the fault `e` exactly
if its first record has that fault. -/
theorem readUntil_zero_eq_nil_some_iff {bytes : List UInt8} {e : DecodeError} :
    readUntil kind 0 budget bytes = ⟨[], some e⟩ ↔
      bytes ≠ [] ∧ readRecord kind budget bytes = .error e := by
  constructor
  · intro h
    have hne : bytes ≠ [] := by
      rintro rfl
      have hnone := readUntil_length kind budget []
      rw [List.length_nil, h] at hnone
      simp at hnone
    have hpos := List.length_pos_iff.mpr hne
    refine ⟨hne, ?_⟩
    cases hread : readRecord kind budget bytes with
    | error e' =>
        rw [readUntil_of_error hpos hread, Reading.mk.injEq, Option.some.injEq] at h
        rw [h.2]
    | ok result => simp [readUntil_of_ok hpos hread] at h
  · rintro ⟨hne, hread⟩
    exact readUntil_of_error (List.length_pos_iff.mpr hne) hread

/-- The reading is complete exactly on segments that the kind accepts. -/
theorem readUntil_eq_none_iff {bytes : List UInt8} {records : List Record} :
    readUntil kind 0 budget bytes = ⟨records, none⟩ ↔
      ∃ segments : List Segment, bytes = segments.flatMap Segment.bytes ∧
        List.Forall₂ (Segment.Reads kind budget) segments records := by
  constructor
  · intro h
    obtain ⟨segments, rest, hbytes, hsegments, hrest⟩ :=
      exists_segments kind 0 budget bytes
    rw [h] at hsegments hrest
    rw [readUntil_eq_nil_none_iff, List.length_eq_zero_iff] at hrest
    rw [hrest, List.append_nil] at hbytes
    exact ⟨segments, hbytes, hsegments⟩
  · rintro ⟨segments, rfl, hsegments⟩
    rw [← List.append_nil (segments.flatMap Segment.bytes),
      readUntil_flatMap_append hsegments (Nat.zero_le _),
      readUntil_eq_nil_none_iff.mpr List.length_nil, List.append_nil]

/-- The bytes before others are read to their end, and no further, exactly if they are read to
their end alone. -/
theorem readUntil_append_eq_none_iff {bytes rest : List UInt8} {records : List Record} :
    readUntil kind rest.length budget (bytes ++ rest) = ⟨records, none⟩ ↔
      readUntil kind 0 budget bytes = ⟨records, none⟩ := by
  rw [readUntil_eq_none_iff]
  constructor
  · intro h
    obtain ⟨segments, left, hbytes, hsegments, hleft⟩ :=
      exists_segments kind rest.length budget (bytes ++ rest)
    rw [h] at hsegments hleft
    have hlength : left.length = rest.length := readUntil_eq_nil_none_iff.mp hleft
    obtain ⟨hown, -⟩ := List.append_inj' hbytes hlength.symm
    exact ⟨segments, hown, hsegments⟩
  · rintro ⟨segments, rfl, hsegments⟩
    rw [readUntil_flatMap_append hsegments (Nat.le_refl _), readUntil_length, List.append_nil]

/-- The reading ends at a fault exactly if the input is segments that the kind accepts and a
rest whose first record has that fault. -/
theorem readUntil_eq_some_iff {bytes : List UInt8} {records : List Record}
    {e : DecodeError} :
    readUntil kind 0 budget bytes = ⟨records, some e⟩ ↔
      ∃ (segments : List Segment) (rest : List UInt8),
        bytes = segments.flatMap Segment.bytes ++ rest ∧
        List.Forall₂ (Segment.Reads kind budget) segments records ∧
        rest ≠ [] ∧ readRecord kind budget rest = .error e := by
  constructor
  · intro h
    obtain ⟨segments, rest, hbytes, hsegments, hrest⟩ :=
      exists_segments kind 0 budget bytes
    rw [h] at hsegments hrest
    exact ⟨segments, rest, hbytes, hsegments, readUntil_zero_eq_nil_some_iff.mp hrest⟩
  · rintro ⟨segments, rest, rfl, hsegments, hrest⟩
    rw [readUntil_flatMap_append hsegments (Nat.zero_le _),
      readUntil_zero_eq_nil_some_iff.mpr hrest, List.append_nil]

end

/-! ### Lists of a message -/

/-- The value that a record adds to the list for a number, if any. -/
def Record.valueFor? (number : Nat) : Record → Option String
  | .stored field value => if field.number = number then some value else none
  | .skipped _ => none

section

variable {kind : Kind} {field : Field}

/-- A record adds to the field that it is for, and to no other one. -/
theorem values_addTo (message : Message kind) (record : Record)
    (h : field ∈ kind.fields) :
    (record.addTo message).values field.number =
      message.values field.number ++ (record.valueFor? field.number).toList := by
  cases record with
  | stored other value =>
      rw [Record.addTo, Message.values_push message other.number value h,
        Record.valueFor?]
      split <;> rfl
  | skipped key => exact (List.append_nil _).symm

/-- Every list grows by the values of its own records, in order. -/
theorem values_addAll (message : Message kind) (records : List Record)
    (h : field ∈ kind.fields) :
    (addAll message records).values field.number =
      message.values field.number ++ records.filterMap (Record.valueFor? field.number) := by
  induction records generalizing message with
  | nil => exact (List.append_nil _).symm
  | cons record records ih =>
      rw [addAll, List.foldl_cons, ← addAll, ih, values_addTo message record h,
        List.append_assoc, List.filterMap_cons]
      cases record.valueFor? field.number with
      | none => rfl
      | some value => rfl

end

end Wire

end InferenceConfig
