import InferenceConfig.Proofs.Wire.Agreement

/-!
# The Documents That Are Accepted

A document is accepted exactly if it is a sequence of segments that the kind accepts, and
the message that it holds is determined by these segments: the list of a field consists of
the strings of the segments with its number, in the order in which they come.

## Main results

* `Wire.decode_eq_ok_iff`, `Wire.read_eq_error_iff_append` — what is accepted, and what is
  refused with which error, in terms of the records that are read;
* `Wire.holds_of_reads` — the records of a field store the strings of its segments;
* `Wire.decode_eq_ok_iff_exists_segments` — what is accepted, in terms of the segments
  alone.
-/

namespace InferenceConfig

namespace Wire

variable {kind : Kind} {budget : Nat} {segments : List Segment} {records : List Record}

/-- A document is accepted exactly if all of it is read. -/
theorem decode_eq_ok_iff {bytes : List UInt8} {message : Message kind} :
    decode kind bytes = .ok message ↔
      ∃ (segments : List Segment) (records : List Record),
        bytes = segments.flatMap Segment.bytes ∧
        List.Forall₂ (Segment.Reads kind nestingBudget) segments records ∧
        addAll (Message.empty kind) records = message := by
  rw [decode_eq_ok_iff_read, read_eq_ok_iff]
  constructor
  · rintro ⟨records, hreading, hmessage⟩
    obtain ⟨segments, hbytes, hreads⟩ := readUntil_eq_none_iff.mp hreading
    exact ⟨segments, records, hbytes, hreads, hmessage⟩
  · rintro ⟨segments, records, hbytes, hreads, hmessage⟩
    exact ⟨records, readUntil_eq_none_iff.mpr ⟨segments, hbytes, hreads⟩, hmessage⟩

/-- An input is refused with an error exactly if the record behind an accepted document has
that error. -/
theorem read_eq_error_iff_append {bytes : List UInt8} {e : DecodeError} :
    read kind bytes = .error e ↔
      ∃ before rest, bytes = before ++ rest ∧
        (∃ message, decode kind before = .ok message) ∧
        rest ≠ [] ∧ readRecord kind nestingBudget rest = .error e := by
  rw [read_eq_error_iff]
  constructor
  · rintro ⟨records, hreading⟩
    obtain ⟨segments, rest, rfl, hreads, hne, hrecord⟩ := readUntil_eq_some_iff.mp hreading
    exact ⟨_, rest, rfl, ⟨_, decode_eq_ok_iff.mpr ⟨segments, records, rfl, hreads, rfl⟩⟩,
      hne, hrecord⟩
  · rintro ⟨before, rest, rfl, ⟨message, hbefore⟩, hne, hrecord⟩
    obtain ⟨segments, records, rfl, hreads, -⟩ := decode_eq_ok_iff.mp hbefore
    exact ⟨records, readUntil_eq_some_iff.mpr ⟨segments, rest, rfl, hreads, hne, hrecord⟩⟩

/-- The segments that a kind accepts are those of which every one is read as a record. -/
theorem forall_fits_iff_exists_reads :
    (∀ segment ∈ segments, segment.Fits kind budget) ↔
      ∃ records, List.Forall₂ (Segment.Reads kind budget) segments records := by
  induction segments with
  | nil => exact ⟨fun _ => ⟨[], .nil⟩, fun _ _ hmem => absurd hmem List.not_mem_nil⟩
  | cons segment segments ih =>
      rw [List.forall_mem_cons, ih, Segment.fits_iff_exists_reads]
      constructor
      · rintro ⟨⟨record, hrecord⟩, records, hrecords⟩
        exact ⟨record :: records, .cons hrecord hrecords⟩
      · rintro ⟨_, hall⟩
        cases hall with
        | cons hrecord hrecords => exact ⟨⟨_, hrecord⟩, _, hrecords⟩

/-- The records with the number of a field store the strings of its segments. Induction on
the segments: a segment with another number belongs to another list, and so does its
record. -/
theorem holds_of_reads {field : Field} (hfield : field ∈ kind.fields)
    (h : List.Forall₂ (Segment.Reads kind budget) segments records) :
    List.Forall₂ Segment.Holds
      (segments.filter fun segment => segment.key.number = field.number)
      (records.filterMap (Record.valueFor? field.number)) := by
  induction h with
  | nil => exact .nil
  | @cons segment record segments records hsegment _ ih =>
      rw [List.filter_cons, List.filterMap_cons]
      cases hsegment with
      | @stored other value start length _ _ hlength =>
          simp only [Record.valueFor?, decide_eq_true_eq]
          by_cases hnumber : other.number = field.number
          · rw [if_pos hnumber, if_pos hnumber]
            exact .cons ⟨rfl, length, hlength, rfl⟩ ih
          · rw [if_neg hnumber, if_neg hnumber]
            exact ih
      | skipped hunknown _ _ _ _ =>
          simp only [Record.valueFor?, decide_eq_true_eq]
          rw [if_neg (Ne.symm (hunknown field hfield))]
          exact ih

/-- **The documents that are accepted.** A document holds a message exactly if it is a
sequence of segments that the kind accepts, nested at most a hundred deep, and the list of
every field consists of the strings of the segments with its number, in their order. -/
theorem decode_eq_ok_iff_exists_segments {kind : Kind} {bytes : List UInt8}
    {message : Message kind} :
    decode kind bytes = .ok message ↔
      ∃ segments : List Segment, bytes = segments.flatMap Segment.bytes ∧
        (∀ segment ∈ segments, segment.Fits kind 100) ∧
        ∀ field ∈ kind.fields, List.Forall₂ Segment.Holds
          (segments.filter fun segment => segment.key.number = field.number)
          (message.values field.number) := by
  rw [decode_eq_ok_iff]
  have hvalues (records : List Record) (field : Field) (hfield : field ∈ kind.fields) :
      (addAll (Message.empty kind) records).values field.number =
        records.filterMap (Record.valueFor? field.number) := by
    rw [values_addAll _ _ hfield, Message.values_empty hfield, List.nil_append]
  constructor
  · rintro ⟨segments, records, hbytes, hreads, rfl⟩
    refine ⟨segments, hbytes, forall_fits_iff_exists_reads.mpr ⟨records, hreads⟩,
      fun field hfield => ?_⟩
    rw [hvalues records field hfield]
    exact holds_of_reads hfield hreads
  · rintro ⟨segments, hbytes, hfits, hlists⟩
    obtain ⟨records, hreads⟩ := forall_fits_iff_exists_reads.mp hfits
    refine ⟨segments, records, hbytes, hreads, Message.ext_values fun field hfield => ?_⟩
    rw [hvalues records field hfield]
    -- The segments of a field determine its list, since each of them holds one string.
    have hunique : Relator.RightUnique Segment.Holds := fun _ _ _ => Segment.Holds.unique
    exact List.right_unique_forall₂' hunique (holds_of_reads hfield hreads)
      (hlists field hfield)

end Wire

end InferenceConfig
