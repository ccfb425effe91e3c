import InferenceConfig.Proofs.Wire.Kinds
import InferenceConfig.Proofs.Wire.RoundTrip

/-!
# Writing a Document Again

A document may hold records in any order, spell keys and lengths in more bytes than needed, and
hold records of unknown fields. What is written for its message has its string records alone,
each in the fewest bytes. So it is never longer than the document, and as long only if it has the
same records in another order.

The comparison is made record by record. A record that stores a value is the one that is written
for the value, or longer than this; a record that is skipped is not written again.

## Main definitions

* `Wire.Segment.IsMinimal` — the key and the length of a record are spelled in the fewest bytes;
* `Wire.Record.entry?` — the entry that a record adds to a message.

## Main results

* `Wire.Segment.Reads.eq_ofEntry_or_lt`, `Wire.Segment.Reads.isMinimal_iff` — one record;
* `Wire.eq_map_ofEntry_or_lt`, `Wire.forall_isMinimal_iff` — the records of a document;
* `Wire.entries_perm_of_reads` — the entries of the message that a document holds;
* `Wire.reencode_length_le` — the length of a document that is written again.
-/

namespace InferenceConfig

namespace Wire

/-- The record is spelled in the fewest bytes: its key, and its length if it has one. -/
structure Segment.IsMinimal (segment : Segment) : Prop where
  /-- The first bytes are the minimal spelling of the key. -/
  start : Varint.IsMinimal segment.start segment.key.value
  /-- The length of the body is in its minimal spelling. -/
  length : segment.key.wireType = .lengthDelimited → ∃ length content,
    segment.body = length ++ content ∧ Varint.IsMinimal length content.length

/-- The entry that a record adds to a message. -/
def Record.entry? : Record → Option (Field × String)
  | .stored field value => some (field, value)
  | .skipped _ => none

/-- A stored record is an entry. -/
@[simp] theorem Record.entry?_stored (field : Field) (value : String) :
    entry? (.stored field value) = some (field, value) := rfl

/-- A skipped record is no entry. -/
@[simp] theorem Record.entry?_skipped (key : Key) : entry? (.skipped key) = none := rfl

variable {kind : Kind} {budget : Nat} {segments : List Segment} {records : List Record}

/-! ### One record -/

/-- A record that stores a value is what is written for the value, or longer than this. -/
theorem Segment.Reads.eq_ofEntry_or_lt {segment : Segment} {field : Field} {value : String}
    (h : segment.Reads kind budget (.stored field value)) :
    segment = ofEntry (field, value) ∨
      (ofEntry (field, value)).bytes.length < segment.bytes.length := by
  cases h with
  | @stored _ _ start length hfield hstart hlength =>
      simp only [ofEntry, bytes, List.length_append]
      rcases hstart.varint.eq_encode_or_lt with rfl | hstart
      · rcases hlength.eq_encode_or_lt with rfl | hlength
        · exact .inl rfl
        · exact .inr (by omega)
      · rcases hlength.eq_encode_or_lt with rfl | hlength
        · exact .inr (by omega)
        · exact .inr (by omega)

/-- A record that stores a value is spelled in the fewest bytes exactly if it is what is written
for the value. -/
theorem Segment.Reads.isMinimal_iff {segment : Segment} {field : Field} {value : String}
    (h : segment.Reads kind budget (.stored field value)) :
    segment.IsMinimal ↔ segment = ofEntry (field, value) := by
  cases h with
  | @stored _ _ start length hfield hstart hlength =>
      constructor
      · intro hminimal
        obtain ⟨found, content, hbody, hfound⟩ := hminimal.length rfl
        -- A body is cut into a length and its bytes in one way only.
        obtain ⟨hcount, rfl, rfl⟩ := hlength.append_inj hfound.isSpelling hbody
        obtain rfl := hstart.varint.isMinimal_iff.mp hminimal.start
        obtain rfl := hlength.isMinimal_iff.mp hfound
        rfl
      · intro heq
        obtain ⟨-, rfl, hbody⟩ := Segment.mk.inj heq
        obtain rfl := List.append_cancel_right hbody
        exact ⟨hstart.varint.isMinimal_iff.mpr rfl,
          fun _ => ⟨_, _, rfl, hlength.isMinimal_iff.mpr rfl⟩⟩

/-! ### The records of a document -/

/-- Records add their entries to a message. -/
theorem addAll_eq_foldl_addEntry (message : Message kind) (records : List Record) :
    addAll message records = (records.filterMap Record.entry?).foldl Message.addEntry message := by
  induction records generalizing message with
  | nil => rfl
  | cons record records ih =>
      cases record with
      | stored field value => exact ih (message.addEntry (field, value))
      | skipped key => exact ih message

/-- The entries of records that are read are of fields of the kind. -/
theorem mem_fields_of_reads (h : List.Forall₂ (Segment.Reads kind budget) segments records) :
    ∀ entry ∈ records.filterMap Record.entry?, entry.1 ∈ kind.fields := by
  induction h with
  | nil => simp
  | cons hsegment _ ih =>
      cases hsegment with
      | stored hfield _ _ => exact List.forall_mem_cons.mpr ⟨hfield, ih⟩
      | skipped _ _ _ _ _ => exact ih

/-- The entries of a document are those of the message that it holds, though not in their
order. -/
theorem entries_perm_of_reads
    (h : List.Forall₂ (Segment.Reads kind budget) segments records) :
    (addAll (Message.empty kind) records).entries.Perm (records.filterMap Record.entry?) := by
  have hperm := Message.entries_foldl_addEntry_perm (Message.empty kind) (mem_fields_of_reads h)
  rwa [← addAll_eq_foldl_addEntry, Message.entries_empty, List.append_nil] at hperm

/-- Records are what is written for their entries, or longer than this. Induction on the
records. -/
theorem eq_map_ofEntry_or_lt (h : List.Forall₂ (Segment.Reads kind budget) segments records) :
    segments = (records.filterMap Record.entry?).map Segment.ofEntry ∨
      (((records.filterMap Record.entry?).map Segment.ofEntry).flatMap Segment.bytes).length <
        (segments.flatMap Segment.bytes).length := by
  induction h with
  | nil => exact .inl rfl
  | @cons segment record segments records hsegment _ ih =>
      have hle : (((records.filterMap Record.entry?).map Segment.ofEntry).flatMap
          Segment.bytes).length ≤ (segments.flatMap Segment.bytes).length := by
        rcases ih with heq | hlt
        · exact Nat.le_of_eq (congrArg _ (congrArg _ heq.symm))
        · exact Nat.le_of_lt hlt
      rw [List.flatMap_cons, List.length_append]
      cases record with
      | stored field value =>
          rw [List.filterMap_cons_some (Record.entry?_stored _ _), List.map_cons,
            List.flatMap_cons, List.length_append]
          rcases hsegment.eq_ofEntry_or_lt with rfl | hlonger
          · rcases ih with heq | hlt
            · exact .inl (congrArg _ heq)
            · exact .inr (Nat.add_lt_add_left hlt _)
          · exact .inr (Nat.add_lt_add_of_lt_of_le hlonger hle)
      | skipped key =>
          have hpos := List.length_pos_iff.mpr hsegment.isComplete.bytes_ne_nil
          rw [List.filterMap_cons_none (Record.entry?_skipped _)]
          exact .inr (by omega)

/-- Records are what is written for their entries exactly if all of them are of fields of the
kind and spelled in the fewest bytes. Induction on the records: a record that is skipped is one
more than there are entries. -/
theorem forall_isMinimal_iff (h : List.Forall₂ (Segment.Reads kind budget) segments records) :
    (∀ segment ∈ segments,
        segment.key.number ∈ kind.fields.map Field.number ∧ segment.IsMinimal) ↔
      segments = (records.filterMap Record.entry?).map Segment.ofEntry := by
  induction h with
  | nil => simp
  | @cons segment record segments records hsegment hsegments ih =>
      rw [List.forall_mem_cons, ih]
      cases record with
      | stored field value =>
          have hassigned : segment.key.number ∈ kind.fields.map Field.number := by
            cases hsegment with
            | stored hfield _ _ => exact List.mem_map.mpr ⟨field, hfield, rfl⟩
          rw [hsegment.isMinimal_iff, List.filterMap_cons_some (Record.entry?_stored _ _),
            List.map_cons, List.cons.injEq]
          exact and_congr_left fun _ => and_iff_right hassigned
      | skipped key =>
          have hunknown : segment.key.number ∉ kind.fields.map Field.number := by
            cases hsegment with
            | skipped hunknown _ _ _ _ =>
                rintro hnumber
                obtain ⟨field, hfield, hfound⟩ := List.mem_map.mp hnumber
                exact hunknown field hfield hfound
          rw [List.filterMap_cons_none (Record.entry?_skipped _)]
          refine iff_of_false (fun hall => hunknown hall.1.1) fun heq => ?_
          have hcount := congrArg List.length heq
          have hentries := List.length_filterMap_le Record.entry? records
          rw [List.length_cons, List.length_map, hsegments.length_eq] at hcount
          omega

/-! ### The document -/

/-- **Writing a document again never makes it longer.** A document is cut into records in one way
only. What is written for its message is as long as the document exactly if all of these records
are of fields of the kind and have their keys and lengths in the minimal spelling; then both have
the same records, in two orders. -/
theorem reencode_length_le {kind : Kind} {bytes : List UInt8} {message : Message kind}
    (h : decode kind bytes = .ok message) :
    (encode message).length ≤ bytes.length ∧
      (∃! segments : List Segment, bytes = segments.flatMap Segment.bytes ∧
        ∀ segment ∈ segments, segment.IsComplete) ∧
      ∀ segments : List Segment, bytes = segments.flatMap Segment.bytes →
        (∀ segment ∈ segments, segment.IsComplete) →
        ((encode message).length = bytes.length ↔ ∀ segment ∈ segments,
            segment.key.number ∈ kind.fields.map Field.number ∧ segment.IsMinimal) ∧
          ((encode message).length = bytes.length →
            ∃ written : List Segment, encode message = written.flatMap Segment.bytes ∧
              (∀ segment ∈ written, segment.IsComplete) ∧ segments.Perm written) := by
  have hcut := existsUnique_segments_of_decode h
  obtain ⟨segments, ⟨rfl, hcomplete⟩, hunique⟩ := hcut
  obtain ⟨records, hreads, rfl⟩ := reads_of_decode hcomplete h
  have hperm := (entries_perm_of_reads hreads).map Segment.ofEntry
  have hlength := (hperm.flatMap_right Segment.bytes).length_eq
  rw [← encode_eq] at hlength
  have hdichotomy := eq_map_ofEntry_or_lt hreads
  have hsame : (encode (addAll (Message.empty kind) records)).length =
      (segments.flatMap Segment.bytes).length ↔
        segments = (records.filterMap Record.entry?).map Segment.ofEntry := by
    rw [hlength]
    exact ⟨fun heq => hdichotomy.resolve_right (Nat.not_lt_of_le (Nat.le_of_eq heq.symm)),
      fun heq => congrArg _ (congrArg _ heq.symm)⟩
  refine ⟨?_, ⟨segments, ⟨rfl, hcomplete⟩, hunique⟩, fun found hfound hall => ?_⟩
  · rcases hdichotomy with heq | hlt
    · exact Nat.le_of_eq (hsame.mpr heq)
    · rw [hlength]
      exact Nat.le_of_lt hlt
  · obtain rfl := hunique found ⟨hfound, hall⟩
    refine ⟨hsame.trans (forall_isMinimal_iff hreads).symm, fun heq => ?_⟩
    have hwritten := hsame.mp heq ▸ hperm.symm
    exact ⟨_, encode_eq _, fun segment hsegment => hall segment (hwritten.mem_iff.mpr hsegment),
      hwritten⟩

/-- A tag before a name, both in the fewest bytes: what is written has the name first. -/
theorem reencode_length_le_model :
    decode .model [0x2a, 0x01, 0x62, 0x12, 0x01, 0x61] = .ok ⟨["a"], ["b"]⟩ ∧
      (@encode .model ⟨["a"], ["b"]⟩).length = 6 ∧
      ∃ written : List Segment,
        @encode .model ⟨["a"], ["b"]⟩ = written.flatMap Segment.bytes ∧
          (∀ segment ∈ written, segment.IsComplete) ∧
          ([⟨⟨5, .lengthDelimited⟩, [0x2a], [0x01, 0x62]⟩,
            ⟨⟨2, .lengthDelimited⟩, [0x12], [0x01, 0x61]⟩] : List Segment).Perm written := by
  have hdecode : decode .model [0x2a, 0x01, 0x62, 0x12, 0x01, 0x61] = .ok ⟨["a"], ["b"]⟩ := by
    decide +kernel
  have hstring (byte : UInt8) : FlatBody .lengthDelimited ([0x01] ++ [byte]) :=
    .lengthDelimited (Varint.isSpelling_singleton (by decide))
  have hlength (byte : UInt8) : ∃ length content, [0x01, byte] = length ++ content ∧
      Varint.IsMinimal length content.length :=
    ⟨[0x01], [byte], rfl, Varint.isMinimal_singleton (by decide)⟩
  have hcomplete : ∀ segment ∈ ([⟨⟨5, .lengthDelimited⟩, [0x2a], [0x01, 0x62]⟩,
      ⟨⟨2, .lengthDelimited⟩, [0x12], [0x01, 0x61]⟩] : List Segment), segment.IsComplete := by
    simp only [List.forall_mem_cons, List.not_mem_nil, false_implies, implies_true, and_true]
    exact ⟨⟨Key.isSpelling_singleton (by decide), 1, .flat (hstring 0x62)⟩,
      ⟨Key.isSpelling_singleton (by decide), 1, .flat (hstring 0x61)⟩⟩
  obtain ⟨-, -, hcut⟩ := reencode_length_le hdecode
  obtain ⟨hsame, hwritten⟩ := hcut _ rfl hcomplete
  have heq := hsame.mpr <| by
    simp only [List.forall_mem_cons, List.not_mem_nil, false_implies, implies_true, and_true]
    exact ⟨⟨by decide, Varint.isMinimal_singleton (by decide), fun _ => hlength 0x62⟩,
      ⟨by decide, Varint.isMinimal_singleton (by decide), fun _ => hlength 0x61⟩⟩
  exact ⟨hdecode, heq, hwritten heq⟩

end Wire

end InferenceConfig
