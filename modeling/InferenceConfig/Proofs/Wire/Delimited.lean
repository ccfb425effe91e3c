import InferenceConfig.Proofs.Wire.Reading

/-!
# Messages Behind Their Length

A message behind its length is read from the whole input, and only between records it is
checked whether the length is used up. Still it is read from its own bytes only: merging
succeeds exactly if these bytes can be merged alone, with one level of nesting less, and then
it gives the same message. What follows them, and how the length is spelled, makes no
difference.

A record that begins within the length and does not end there is never merged with success.
What follows the length may complete the record, so that it can be read; then it is found out
that too much has been read.

## Main results

* `Wire.mergeDelimited_eq_none_iff` — merging from behind a length succeeds exactly if merging
  the bytes alone does;
* `Wire.mergeUntil_ne_none_of_crossing` — the bytes of a document that ends within a record;
* `Wire.mergeDelimited_own_bytes` — messages behind their length as a whole.
-/

namespace InferenceConfig

namespace Wire

variable {kind : Kind} {start bytes : List UInt8}

/-- Merging from behind a length succeeds exactly if merging the bytes alone does, with one
level of nesting less. -/
theorem mergeDelimited_eq_none_iff (hstart : Varint.IsSpelling start bytes.length)
    (message merged : Message kind) (after : List UInt8) :
    mergeDelimited message (start ++ (bytes ++ after)) = ⟨merged, none⟩ ↔
      mergeUntil 0 99 message bytes = ⟨merged, none⟩ := by
  have hlength : (bytes ++ after).length = bytes.length + after.length := List.length_append
  rw [mergeDelimited_of_isSpelling hstart (by omega), hlength, Nat.add_sub_cancel_left,
    mergeUntil_eq_none_iff, mergeUntil_eq_none_iff]
  exact exists_congr fun records => and_congr_left' readUntil_append_eq_none_iff

/-- Bytes that end within a record are not merged with success, since the first record of an
input is unique: no other cut makes all of them records. -/
theorem mergeUntil_ne_none_of_crossing {segments : List Segment} {segment : Segment}
    {part missing : List UInt8} (hsegments : ∀ segment ∈ segments, segment.IsComplete)
    (hsegment : segment.IsComplete) (hbytes : segment.bytes = part ++ missing)
    (hpart : part ≠ []) (hmissing : missing ≠ []) (budget : Nat)
    (message merged : Message kind) :
    mergeUntil 0 budget message (segments.flatMap Segment.bytes ++ part) ≠ ⟨merged, none⟩ := by
  intro h
  obtain ⟨records, hread, -⟩ := mergeUntil_eq_none_iff.mp h
  obtain ⟨found, happend, hreads⟩ := readUntil_eq_none_iff.mp hread
  have hfound := isComplete_of_reads hreads
  obtain ⟨later, rfl, hlater⟩ :=
    Segment.exists_append_of_flatMap_append hsegments hfound happend
  cases later with
  | nil => exact hpart hlater.symm
  | cons first later =>
      have hfirst := hfound first (List.mem_append_right segments List.mem_cons_self)
      have hwhole : first.bytes ++ (later.flatMap Segment.bytes ++ missing) =
          segment.bytes ++ [] := by
        rw [← List.append_assoc, ← List.flatMap_cons, hlater, hbytes, List.append_nil]
      obtain ⟨-, hnil⟩ := hfirst.append_inj hsegment hwhole
      exact hmissing (List.append_eq_nil_iff.mp hnil).2

/-- **A message behind its length is read from its own bytes only.** Merging it succeeds
exactly if merging its bytes alone does, with one level of nesting less, and gives the same
message. So neither what follows the bytes nor the spelling of the length decides whether it
succeeds, or what is merged. If the bytes end within a record then it fails, even if what
follows completes the record. Reading a message from behind its length is the same for the
empty message. -/
theorem mergeDelimited_own_bytes (hstart : Varint.IsSpelling start bytes.length) :
    (∀ (message merged : Message kind) after,
      mergeDelimited message (start ++ (bytes ++ after)) = ⟨merged, none⟩ ↔
        mergeUntil 0 99 message bytes = ⟨merged, none⟩) ∧
    (∀ (message merged : Message kind) after other after',
      Varint.IsSpelling other bytes.length →
      (mergeDelimited message (start ++ (bytes ++ after)) = ⟨merged, none⟩ ↔
        mergeDelimited message (other ++ (bytes ++ after')) = ⟨merged, none⟩)) ∧
    (∀ (segments : List Segment) (segment : Segment) part missing,
      (∀ segment ∈ segments, segment.IsComplete) → segment.IsComplete →
      segment.bytes = part ++ missing → part ≠ [] → missing ≠ [] →
      bytes = segments.flatMap Segment.bytes ++ part →
      ∀ (message : Message kind) after,
        (mergeDelimited message (start ++ (bytes ++ after))).error? ≠ none) ∧
    (∀ (merged : Message kind) after,
      readDelimited kind (start ++ (bytes ++ after)) = .ok merged ↔
        mergeUntil 0 99 (Message.empty kind) bytes = ⟨merged, none⟩) := by
  refine ⟨mergeDelimited_eq_none_iff hstart, ?_, ?_, ?_⟩
  · intro message merged after other after' hother
    rw [mergeDelimited_eq_none_iff hstart, mergeDelimited_eq_none_iff hother]
  · intro segments segment part missing hsegments hsegment hsplit hpart hmissing hbytes
      message after hnone
    have hmerged := (mergeDelimited_eq_none_iff hstart message _ after).mp
      (congrArg (Merged.mk _) hnone)
    rw [hbytes] at hmerged
    exact mergeUntil_ne_none_of_crossing hsegments hsegment hsplit hpart hmissing 99 message _
      hmerged
  · intro merged after
    rw [readDelimited, toExcept_eq_ok_iff, mergeDelimited_eq_none_iff hstart]

/-- A string behind a length that takes one byte more than it needs, with bytes behind it that
are no record, and a string that is completed only by what follows the length. -/
theorem mergeDelimited_own_bytes_data :
    @mergeDelimited .data ⟨["z"]⟩ ([0x83, 0x00] ++ ([0x12, 0x01, 0x61] ++ [0xff])) =
      ⟨⟨["z", "a"]⟩, none⟩ ∧
    (@mergeDelimited .data ⟨["z"]⟩ ([0x03] ++ ([0x12, 0x02, 0x61] ++ [0x62]))).error? ≠ none ∧
    readDelimited .data ([0x03] ++ ([0x12, 0x01, 0x61] ++ [0x12])) = .ok ⟨["a"]⟩ := by
  have hshort : Varint.IsSpelling [0x03] 3 := Varint.isSpelling_singleton (by decide)
  have hpadded : Varint.IsSpelling [0x83, 0x00] 3 :=
    ⟨by simp, ⟨0x00, rfl, by decide, by decide⟩, by decide, rfl⟩
  obtain ⟨hmerge, -, -, -⟩ := @mergeDelimited_own_bytes .data _ [0x12, 0x01, 0x61] hpadded
  obtain ⟨-, -, -, hread⟩ := @mergeDelimited_own_bytes .data _ [0x12, 0x01, 0x61] hshort
  obtain ⟨-, -, hcrossing, -⟩ := @mergeDelimited_own_bytes .data _ [0x12, 0x02, 0x61] hshort
  have hmerged (message merged : Message .data)
      (hmessage : (mergeUntil 0 99 message [0x12, 0x01, 0x61]).message = merged)
      (hnone : (mergeUntil 0 99 message [0x12, 0x01, 0x61]).error? = none) :
      mergeUntil 0 99 message [0x12, 0x01, 0x61] = ⟨merged, none⟩ := by
    rw [← hmessage, ← hnone]
  refine ⟨(hmerge _ _ _).mpr (hmerged _ _ ?_ ?_), ?_, (hread _ _).mpr (hmerged _ _ ?_ ?_)⟩
  · decide +kernel
  · decide +kernel
  · have hstart : Key.IsSpelling [0x12] ⟨2, .lengthDelimited⟩ :=
      Key.isSpelling_singleton (by decide)
    have hbody : FlatBody .lengthDelimited ([0x02] ++ [0x61, 0x62]) :=
      .lengthDelimited (Varint.isSpelling_singleton (by decide))
    have hsegment : (⟨⟨2, .lengthDelimited⟩, [0x12], [0x02, 0x61, 0x62]⟩ : Segment).IsComplete :=
      ⟨hstart, 1, .flat hbody⟩
    exact hcrossing [] _ [0x12, 0x02, 0x61] [0x62] (by simp) hsegment rfl (by simp) (by simp)
      rfl _ _
  · decide +kernel
  · decide +kernel

end Wire

end InferenceConfig
