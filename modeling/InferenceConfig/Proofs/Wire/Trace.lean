import InferenceConfig.Document.Codec
import InferenceConfig.Proofs.Wire.Growth

/-!
# Every Skipped Record is Reported

Decoding reports the key of each record that it is about to skip. The report is made by a look at
the field table before the record is read, and whether its value is stored is decided by another
look behind it. Both come to the same: a record of the document is stored or reported, and never
both.

The events of an accepted document are its skipped records, one for each, in their order. What
stands in a group is part of the record of the group and is not reported. If a document is
refused, the records before the fault are reported in the same way, and behind them the record at
fault, if its key can be read and is that of an unknown field.

## Main definitions

* `Kind.Skips` — the numbers of records that are skipped;
* `Wire.skippedKeys` — the keys of the skipped records among segments;
* `Wire.Announces` — what is reported of the record at the start of an input.

## Main results

* `Wire.decodeInto_append` — the report and the value of one accepted record;
* `Wire.fst_decodeInto_flatMap` — the reports of accepted records, whatever follows;
* `Wire.announces_of_readRecord` — the report of a record that is refused;
* `Document.decodeTraced_reports` — the events of accepted and of refused documents.
-/

namespace InferenceConfig

/-- Records with this number are skipped: it is neither assigned nor retired. -/
def Kind.Skips (kind : Kind) (number : Nat) : Prop :=
  number ∉ kind.fields.map Field.number ∧ number ∉ kind.reserved

instance (kind : Kind) : DecidablePred kind.Skips :=
  fun number => inferInstanceAs (Decidable
    (number ∉ kind.fields.map Field.number ∧ number ∉ kind.reserved))

/-- A number that is not retired is skipped exactly if it belongs to no field. -/
theorem Kind.skips_iff {kind : Kind} {number : Nat} (hreserved : number ∉ kind.reserved) :
    kind.Skips number ↔ ∀ field ∈ kind.fields, field.number ≠ number := by
  rw [Kind.Skips, and_iff_left hreserved, List.mem_map]
  simp only [not_exists, not_and]

/-- The look-up finds nothing exactly for the numbers that are skipped. -/
theorem Kind.isNone_fieldWithNumber?_iff {kind : Kind} {number : Nat}
    (hreserved : number ∉ kind.reserved) :
    (kind.fieldWithNumber? number).isNone = true ↔ kind.Skips number := by
  rw [Option.isNone_iff_eq_none, Kind.fieldWithNumber?_eq_none_iff, Kind.skips_iff hreserved]

namespace Wire

/-- The keys of the skipped records among the segments, in their order. -/
def skippedKeys (kind : Kind) (segments : List Segment) : List Key :=
  (segments.filter fun segment => kind.Skips segment.key.number).map Segment.key

/-- What is reported of the record at the start of an input, whether or not its body can be read:
its key, if that is spelled there and the record is to be skipped. -/
inductive Announces (kind : Kind) (bytes : List UInt8) : List Key → Prop
  | skipped {key : Key} {start after : List UInt8} :
      bytes = start ++ after → Key.IsSpelling start key → kind.Skips key.number →
      Announces kind bytes [key]
  | nothing :
      (∀ key start after, bytes = start ++ after → Key.IsSpelling start key →
        ¬ kind.Skips key.number) →
      Announces kind bytes []

variable {kind : Kind}

/-! ### The report of one record -/

/-- The decoding of an input whose first key can be read and has no retired number: the record
is reported if it is to be skipped, and then its body is read. -/
theorem decodeInto_of_key {bytes body : List UInt8} {key : Key}
    (hkey : Key.read bytes = .ok (key, body)) (hreserved : key.number ∉ kind.reserved)
    (message : Message kind) :
    decodeInto message bytes =
      ((if kind.Skips key.number then [key] else []) ++
        match readBody kind nestingBudget key body with
        | .error _ => []
        | .ok (record, rest) => (decodeInto (record.addTo message) rest).1,
      match readBody kind nestingBudget key body with
      | .error e => .error (.decode e)
      | .ok (record, rest) => (decodeInto (record.addTo message) rest).2) := by
  have hne : bytes.isEmpty = false := by
    obtain ⟨start, rfl, hstart⟩ := Key.read_eq_ok_iff.mp hkey
    rw [List.isEmpty_eq_false_iff]
    exact fun hnil => hstart.ne_nil (List.append_eq_nil_iff.mp hnil).1
  rw [decodeInto, if_neg (by rw [hne]; decide)]
  split
  · next fault hfault => simp [hkey] at hfault
  · next found after hfound =>
      obtain ⟨rfl, rfl⟩ := Prod.mk.inj (Except.ok.inj (hkey.symm.trans hfound))
      rw [if_neg (by rwa [Kind.isReserved_iff])]
      simp only [Kind.isNone_fieldWithNumber?_iff hreserved]
      split
      · next e merged hfield =>
          have hread := readBody_eq_error_iff.mpr (mergeField_eq_error_iff.mp hfield).1
          simp only [hread, List.append_nil]
      · next rest merged hfield =>
          obtain ⟨record, hread, rfl⟩ := mergeField_eq_ok_iff.mp hfield
          simp only [hread]

/-- An accepted record is reported exactly if it is skipped, and the decoding goes on behind it
with what it adds. -/
theorem decodeInto_append {segment : Segment} {record : Record}
    (h : segment.Reads kind nestingBudget record) (message : Message kind) (rest : List UInt8) :
    decodeInto message (segment.bytes ++ rest) =
      (skippedKeys kind [segment] ++ (decodeInto (record.addTo message) rest).1,
        (decodeInto (record.addTo message) rest).2) := by
  obtain ⟨key, start, body⟩ := segment
  have hstart : Key.IsSpelling start key := h.start
  have hkey : Key.read (start ++ (body ++ rest)) = .ok (key, body ++ rest) :=
    hstart.read (body ++ rest)
  have hread : readBody kind nestingBudget key (body ++ rest) = .ok (record, rest) :=
    (readBody_eq_ok_iff hstart).mpr ⟨body, rfl, h⟩
  rw [Segment.bytes, List.append_assoc, decodeInto_of_key hkey h.number_notMem_reserved]
  simp only [hread, skippedKeys, List.filter_cons, List.filter_nil, decide_eq_true_eq]
  split <;> rfl

/-- The records that are accepted are reported if they are skipped, in their order, whatever
follows them. Induction on the records. -/
theorem fst_decodeInto_flatMap {segments : List Segment} {records : List Record}
    (h : List.Forall₂ (Segment.Reads kind nestingBudget) segments records)
    (message : Message kind) (rest : List UInt8) :
    (decodeInto message (segments.flatMap Segment.bytes ++ rest)).1 =
      skippedKeys kind segments ++ (decodeInto (addAll message records) rest).1 := by
  induction h generalizing message with
  | nil => rfl
  | @cons segment record segments records hsegment _ ih =>
      rw [List.flatMap_cons, List.append_assoc, decodeInto_append hsegment, ih,
        ← List.append_assoc, skippedKeys, skippedKeys, skippedKeys, ← List.map_append,
        ← List.filter_append]
      rfl

/-! ### The report of a record that is refused -/

/-- Without a key at its start, nothing is reported of an input. -/
theorem announces_nil_of_read_eq_error {bytes : List UInt8} {fault : Fault}
    (h : Key.read bytes = .error fault) : Announces kind bytes [] := by
  refine .nothing fun key start after hbytes hstart => ?_
  rw [hbytes, hstart.read] at h
  exact absurd h (by simp)

/-- With a key at its start, what is reported of an input is decided by its number. -/
theorem announces_of_read_eq_ok {bytes body : List UInt8} {key : Key}
    (h : Key.read bytes = .ok (key, body)) :
    Announces kind bytes (if kind.Skips key.number then [key] else []) := by
  obtain ⟨start, rfl, hstart⟩ := Key.read_eq_ok_iff.mp h
  split
  · next hskips => exact .skipped rfl hstart hskips
  · next hskips =>
      refine .nothing fun found start' after hbytes hfound => ?_
      obtain ⟨rfl, -, -⟩ := hstart.append_inj hfound hbytes
      exact hskips

/-- Nothing is reported before a key is read, nor behind a key with a retired number. -/
theorem fst_decodeInto_eq_nil {bytes : List UInt8}
    (h : ∀ key body, Key.read bytes = .ok (key, body) → key.number ∈ kind.reserved)
    (message : Message kind) : (decodeInto message bytes).1 = [] := by
  fun_cases decodeInto message bytes with
  | case1 => rfl
  | case2 => rfl
  | case3 => rfl
  | case4 _ key body hkey hreserved =>
      exact absurd (Kind.isReserved_iff.mpr (h key body hkey)) hreserved
  | case5 _ key body hkey hreserved =>
      exact absurd (Kind.isReserved_iff.mpr (h key body hkey)) hreserved

/-- A record that is refused is reported if its key can be read and it was to be skipped. -/
theorem announces_of_readRecord {bytes : List UInt8} {e : DecodeError}
    (h : readRecord kind nestingBudget bytes = .error e) (message : Message kind) :
    Announces kind bytes (decodeInto message bytes).1 := by
  rw [readRecord] at h
  split at h
  · next fault hkey =>
      rw [fst_decodeInto_eq_nil (by simp [hkey])]
      exact announces_nil_of_read_eq_error hkey
  · next key body hkey =>
      have hreport : Announces kind bytes _ := announces_of_read_eq_ok hkey
      by_cases hreserved : key.number ∈ kind.reserved
      · rw [if_neg fun hskips => hskips.2 hreserved] at hreport
        rw [fst_decodeInto_eq_nil (by simpa [hkey] using hreserved)]
        exact hreport
      · rw [decodeInto_of_key hkey hreserved]
        simp only [h, List.append_nil]
        exact hreport

/-! ### Whole documents -/

/-- The reports of a document that is accepted. -/
theorem fst_decodeTraced_of_reads {segments : List Segment} {records : List Record}
    (h : List.Forall₂ (Segment.Reads kind nestingBudget) segments records) :
    (decodeTraced kind (segments.flatMap Segment.bytes)).1 = skippedKeys kind segments := by
  have htrace := fst_decodeInto_flatMap h (Message.empty kind) []
  have hend (message : Message kind) : (decodeInto message []).1 = [] := by
    rw [decodeInto]
    rfl
  rwa [hend, List.append_nil, List.append_nil] at htrace

/-- A document that is refused is accepted records and a rest that begins with none. -/
theorem exists_segments_of_decode_eq_error {bytes : List UInt8} {e : WireError}
    (h : decode kind bytes = .error e) :
    ∃ (segments : List Segment) (records : List Record) (rest : List UInt8) (fault : DecodeError),
      bytes = segments.flatMap Segment.bytes ++ rest ∧
      List.Forall₂ (Segment.Reads kind nestingBudget) segments records ∧
      rest ≠ [] ∧ readRecord kind nestingBudget rest = .error fault := by
  rw [decode_eq_mapError_read] at h
  obtain ⟨fault, hread, -⟩ := mapError_eq_error_iff.mp h
  obtain ⟨records, hreading⟩ := read_eq_error_iff.mp hread
  obtain ⟨segments, rest, hbytes, hreads, hne, hrecord⟩ := readUntil_eq_some_iff.mp hreading
  exact ⟨segments, records, rest, fault, hbytes, hreads, hne, hrecord⟩

/-- A record that is refused is none that the kind accepts. -/
theorem not_fits_of_readRecord_eq_error {segment : Segment} {rest : List UInt8} {e : DecodeError}
    (h : readRecord kind nestingBudget (segment.bytes ++ rest) = .error e) :
    ¬ segment.Fits kind nestingBudget := by
  rw [Segment.fits_iff_exists_reads]
  rintro ⟨record, hreads⟩
  rw [hreads.readRecord] at h
  exact absurd h (by simp)

end Wire

namespace Document

open Wire (Segment skippedKeys Announces)

/-- Decoding the wire format logs one event for each number that is skipped. -/
theorem fst_decodeTraced_binary (kind : Kind) (origin : String) (bytes : List UInt8) :
    (decodeTraced kind .binary origin bytes).1 =
      (Wire.decodeTraced kind bytes).1.map (Event.skipping kind) := by
  simp only [decodeTraced]
  split <;> rfl

/-- **Nothing disappears unreported.** An accepted binary document is cut into records in one way
only. Each of them is stored or skipped: the strings of the records of a field are its list, and
the events are the skipped records, one for each, in their order. The events of a refused document
are the skipped ones among the records that are accepted before the fault, and behind them the
record at fault, if its key can be read and it was to be skipped. -/
theorem decodeTraced_reports (kind : Kind) (origin : String) (bytes : List UInt8) :
    (∀ message, Wire.decode kind bytes = .ok message →
      ∃ segments : List Segment, bytes = segments.flatMap Segment.bytes ∧
        (∀ segment ∈ segments, segment.IsComplete) ∧
        (∀ found : List Segment, bytes = found.flatMap Segment.bytes →
          (∀ segment ∈ found, segment.IsComplete) → found = segments) ∧
        (∀ segment ∈ segments, kind.Skips segment.key.number ↔
          ∀ field ∈ kind.fields, field.number ≠ segment.key.number) ∧
        (∀ field ∈ kind.fields, List.Forall₂ Segment.Holds
          (segments.filter fun segment => segment.key.number = field.number)
          (message.values field.number)) ∧
        (decodeTraced kind .binary origin bytes).1 =
          (skippedKeys kind segments).map (Event.skipping kind)) ∧
    ∀ e, Wire.decode kind bytes = .error e →
      ∃ (segments : List Segment) (rest : List UInt8) (last : List Key),
        bytes = segments.flatMap Segment.bytes ++ rest ∧
        (∀ segment ∈ segments, segment.Fits kind 100) ∧
        rest ≠ [] ∧
        (∀ segment after, rest = Segment.bytes segment ++ after → ¬ segment.Fits kind 100) ∧
        Announces kind rest last ∧
        (decodeTraced kind .binary origin bytes).1 =
          (skippedKeys kind segments ++ last).map (Event.skipping kind) := by
  rw [fst_decodeTraced_binary]
  constructor
  · intro message hdecode
    obtain ⟨segments, records, rfl, hreads, rfl⟩ := Wire.decode_eq_ok_iff.mp hdecode
    have hcomplete := Wire.isComplete_of_reads hreads
    refine ⟨segments, rfl, hcomplete, ?_, ?_, ?_, ?_⟩
    · intro found hfound hall
      exact (Segment.eq_of_flatMap_eq hcomplete hall hfound).symm
    · intro segment hmem
      obtain ⟨record, hsegment⟩ := Wire.exists_reads_of_mem hreads hmem
      exact Kind.skips_iff hsegment.number_notMem_reserved
    · intro field hfield
      rw [Wire.values_addAll _ _ hfield, Message.values_empty hfield, List.nil_append]
      exact Wire.holds_of_reads hfield hreads
    · rw [Wire.fst_decodeTraced_of_reads hreads]
  · intro e hdecode
    obtain ⟨segments, records, rest, fault, rfl, hreads, hne, hrecord⟩ :=
      Wire.exists_segments_of_decode_eq_error hdecode
    refine ⟨segments, rest, _, rfl, Wire.forall_fits_iff_exists_reads.mpr ⟨records, hreads⟩, hne,
      ?_, Wire.announces_of_readRecord hrecord (Wire.addAll (Message.empty kind) records), ?_⟩
    · rintro segment after rfl
      exact Wire.not_fits_of_readRecord_eq_error hrecord
    · rw [Wire.decodeTraced, Wire.fst_decodeInto_flatMap hreads]

/-- A group is reported once, whatever stands in it, and the record behind it as well. If that
one is cut off behind its key, it is still reported. -/
theorem decodeTraced_reports_group :
    (∃ segments : List Segment,
      [0x3b, 0x08, 0x05, 0x3c, 0x2a, 0x01, 0x61, 0x40, 0x07] = segments.flatMap Segment.bytes ∧
      (decodeTraced .model .binary "stdin"
        [0x3b, 0x08, 0x05, 0x3c, 0x2a, 0x01, 0x61, 0x40, 0x07]).1 =
          (skippedKeys .model segments).map (Event.skipping .model) ∧
      (skippedKeys .model segments).map (Event.skipping .model) =
        [.skipping .model ⟨7, .startGroup⟩, .skipping .model ⟨8, .varint⟩]) ∧
    ∃ rest last, rest ≠ [] ∧ Announces .model rest last ∧
      (decodeTraced .model .binary "stdin" [0x3b, 0x08, 0x05, 0x3c, 0x40]).1 =
        [.skipping .model ⟨7, .startGroup⟩, .skipping .model ⟨8, .varint⟩] := by
  have hok : Wire.decode .model [0x3b, 0x08, 0x05, 0x3c, 0x2a, 0x01, 0x61, 0x40, 0x07] =
      .ok ⟨[], ["a"]⟩ := by decide +kernel
  have herror : Wire.decode .model [0x3b, 0x08, 0x05, 0x3c, 0x40] =
      .error (.decode { kind := .model, fault := .invalidVarint }) := by decide +kernel
  constructor
  · obtain ⟨segments, hbytes, -, -, -, -, hevents⟩ :=
      (decodeTraced_reports .model "stdin" _).1 _ hok
    exact ⟨segments, hbytes, hevents, hevents ▸ by decide +kernel⟩
  · obtain ⟨segments, rest, last, -, -, hne, -, hlast, -⟩ :=
      (decodeTraced_reports .model "stdin" _).2 _ herror
    exact ⟨rest, last, hne, hlast, by decide +kernel⟩

end Document

end InferenceConfig
