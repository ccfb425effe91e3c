import InferenceConfig.Proofs.Wire.Acceptance

/-!
# Records of Unknown Fields

A record of a field that is neither assigned nor retired leaves no trace. Behind an accepted
document it may be left out, whatever follows: the same message is read, or the same error
is found. Only its depth matters. A record that is nested more deeply than the budget allows
is an error, and what follows is not looked at.

The members of a group are not looked at as fields either. They may have numbers that are
assigned or retired, and strings in them need not be UTF-8.

Behind a length one level of nesting is used up. What comes before the record may then be too
deep itself; this is the same error, so the record may be left out there as well.

## Main definitions

* `Wire.nestingError` — the error of a record that is nested too deeply;
* `Wire.Segment.IsUnknown` — a record of an unknown field, with its depth.

## Main results

* `Wire.Segment.Reads.within` — what becomes of an accepted record with another budget;
* `Wire.mergeUntil_unknown` — merging with and without a record of an unknown field;
* `Wire.decode_unknown` — the same for whole documents, plain and behind their length.
-/

namespace InferenceConfig

namespace Wire

/-- The error of a record that is nested more deeply than the budget allows. -/
def nestingError (kind : Kind) : DecodeError :=
  { kind, fault := .recursionLimit }

/-- The segment is a record of a field that is neither assigned nor retired. -/
structure Segment.IsUnknown (kind : Kind) (depth : Nat) (segment : Segment) : Prop where
  /-- The first bytes spell the key. -/
  start : Key.IsSpelling segment.start segment.key
  /-- The field number is not assigned. -/
  unassigned : segment.key.number ∉ kind.fields.map Field.number
  /-- The field number is not retired. -/
  not_reserved : segment.key.number ∉ kind.reserved
  /-- The other bytes are a body of the key. -/
  body : Body segment.key depth segment.body

variable {kind : Kind} {budget depth : Nat} {segment : Segment}

/-- No field has the number of an unknown segment. -/
theorem Segment.IsUnknown.number_ne (h : segment.IsUnknown kind depth) :
    ∀ field ∈ kind.fields, field.number ≠ segment.key.number :=
  fun field hfield hnumber =>
    h.unassigned (List.mem_map.mpr ⟨field, hfield, hnumber⟩)

/-- Within the budget, a record of an unknown field is skipped. -/
theorem Segment.IsUnknown.reads (h : segment.IsUnknown kind depth)
    (hdepth : depth ≤ budget) : segment.Reads kind budget (.skipped segment.key) :=
  .skipped h.number_ne h.not_reserved h.start h.body hdepth

/-- Beyond the budget, a record of an unknown field is refused for its depth, whatever
follows. -/
theorem Segment.IsUnknown.readRecord_of_lt (h : segment.IsUnknown kind depth)
    (hdepth : budget < depth) (rest : List UInt8) :
    readRecord kind budget (segment.bytes ++ rest) = .error (nestingError kind) := by
  have hskip := skip_of_lt h.body hdepth rest
  have hnone := Kind.fieldWithNumber?_eq_none_iff.mpr h.number_ne
  rw [Segment.bytes, List.append_assoc]
  simp only [readRecord, h.start.read]
  rw [readBody, if_neg (by rw [Kind.isReserved_iff]; exact h.not_reserved), hnone]
  simp only [hskip]
  rfl

/-! ### Another budget -/

/-- What is accepted with one budget is accepted with another one too, or it is refused for
its depth. -/
theorem Segment.Reads.within {record : Record} (h : segment.Reads kind budget record)
    (other : Nat) : segment.Reads kind other record ∨
      ∀ rest, Wire.readRecord kind other (segment.bytes ++ rest) =
        .error (nestingError kind) := by
  cases h with
  | stored hfield hstart hlength => exact .inl (.stored hfield hstart hlength)
  | @skipped key depth start body hnumber hreserved hstart hbody hdepth =>
      by_cases hother : depth ≤ other
      · exact .inl (.skipped hnumber hreserved hstart hbody hother)
      · have hunassigned : key.number ∉ kind.fields.map Field.number := fun hmem => by
          obtain ⟨field, hfield, hfound⟩ := List.mem_map.mp hmem
          exact hnumber field hfield hfound
        have hunknown : Segment.IsUnknown kind depth ⟨key, start, body⟩ :=
          ⟨hstart, hunassigned, hreserved, hbody⟩
        exact .inr (hunknown.readRecord_of_lt (Nat.lt_of_not_le hother))

/-- Segments that are accepted with one budget are accepted with another one too, or the
reading ends at the first of them that is too deep, and never comes to what follows. -/
theorem reads_within {segments : List Segment} {records : List Record}
    (h : List.Forall₂ (Segment.Reads kind budget) segments records) (other : Nat) :
    List.Forall₂ (Segment.Reads kind other) segments records ∨
      ∃ found, ∀ rest, readUntil kind 0 other (segments.flatMap Segment.bytes ++ rest) =
        ⟨found, some (nestingError kind)⟩ := by
  induction h with
  | nil => exact .inl .nil
  | @cons segment record segments records hsegment _ ih =>
      have hpos (rest : List UInt8) :
          0 < (segment.bytes ++ (segments.flatMap Segment.bytes ++ rest)).length :=
        Nat.zero_lt_of_lt (Segment.length_lt_length_append hsegment.start _)
      simp only [List.flatMap_cons, List.append_assoc]
      rcases hsegment.within other with hreads | hdeep
      · rcases ih with hall | ⟨found, hfound⟩
        · exact .inl (.cons hreads hall)
        · refine .inr ⟨record :: found, fun rest => ?_⟩
          rw [readUntil_of_ok (hpos rest) (hreads.readRecord _), hfound rest]
      · exact .inr ⟨[], fun rest => readUntil_of_error (hpos rest) (hdeep _)⟩

/-! ### With and without the record -/

/-- Behind segments that are accepted with some budget, a record of an unknown field makes
no difference if its depth is within the budget that is left, and is an error if not. -/
theorem mergeUntil_unknown {segments : List Segment} {records : List Record}
    (hreads : List.Forall₂ (Segment.Reads kind budget) segments records)
    (hunknown : segment.IsUnknown kind depth) (other : Nat) (message : Message kind)
    (after : List UInt8) :
    (depth ≤ other →
      mergeUntil 0 other message
          (segments.flatMap Segment.bytes ++ (segment.bytes ++ after)) =
        mergeUntil 0 other message (segments.flatMap Segment.bytes ++ after)) ∧
    (other < depth →
      (mergeUntil 0 other message
          (segments.flatMap Segment.bytes ++ (segment.bytes ++ after))).error? =
        some (nestingError kind)) := by
  have hpos : 0 < (segment.bytes ++ after).length :=
    Nat.zero_lt_of_lt (Segment.length_lt_length_append hunknown.start after)
  simp only [mergeUntil_eq]
  rcases reads_within hreads other with hall | ⟨found, hfound⟩
  · simp only [readUntil_flatMap_append hall (Nat.zero_le _)]
    constructor
    · intro hdepth
      rw [readUntil_of_ok hpos ((hunknown.reads hdepth).readRecord after)]
      simp only [addAll, List.foldl_append, List.foldl_cons, Record.addTo]
    · intro hdepth
      rw [readUntil_of_error hpos (hunknown.readRecord_of_lt hdepth after)]
  · simp only [hfound, implies_true, and_self]

/-- **Records of unknown fields leave no trace.** Let a record of a field that is neither
assigned nor retired stand behind an accepted document. If it is nested at most a hundred
deep then the whole, with anything behind it, is the same message or the same error as
without the record; otherwise it is refused for its depth. Behind a length the same holds
with 99 in place of a hundred. -/
theorem decode_unknown {before : List UInt8} {message : Message kind}
    (hbefore : decode kind before = .ok message) (hunknown : segment.IsUnknown kind depth)
    (after : List UInt8) :
    (depth ≤ 100 →
      decode kind (before ++ (segment.bytes ++ after)) = decode kind (before ++ after)) ∧
    (100 < depth →
      decode kind (before ++ (segment.bytes ++ after)) =
        .error (.decode (nestingError kind))) ∧
    (∀ length, Varint.IsSpelling length (before ++ (segment.bytes ++ after)).length →
      (depth ≤ 99 → ∀ shorter, Varint.IsSpelling shorter (before ++ after).length →
        readDelimited kind (length ++ (before ++ (segment.bytes ++ after))) =
          readDelimited kind (shorter ++ (before ++ after))) ∧
      (99 < depth →
        readDelimited kind (length ++ (before ++ (segment.bytes ++ after))) =
          .error (nestingError kind))) ∧
    (nestingError kind).message =
      "failed to decode Protobuf message: recursion limit reached" := by
  obtain ⟨segments, records, rfl, hreads, -⟩ := decode_eq_ok_iff.mp hbefore
  have hmerge (other : Nat) :=
    mergeUntil_unknown hreads hunknown other (Message.empty kind) after
  have hdelimited {start bytes : List UInt8}
      (hstart : Varint.IsSpelling start bytes.length) :
      readDelimited kind (start ++ bytes) =
        (mergeUntil 0 99 (Message.empty kind) bytes).toExcept := by
    rw [readDelimited, mergeDelimited_of_isSpelling hstart (Nat.le_refl _), Nat.sub_self]
    rfl
  refine ⟨fun hdepth => ?_, fun hdepth => ?_, fun length hlength => ⟨?_, ?_⟩, rfl⟩
  · rw [decode_eq_mapError_read, decode_eq_mapError_read, read, read, merge, merge,
      (hmerge nestingBudget).1 hdepth]
  · rw [decode_eq_mapError_read, read, merge, Merged.toExcept,
      (hmerge nestingBudget).2 hdepth]
    rfl
  · intro hdepth shorter hshorter
    rw [hdelimited hlength, hdelimited hshorter, (hmerge 99).1 hdepth]
  · intro hdepth
    rw [hdelimited hlength, Merged.toExcept, (hmerge 99).2 hdepth]

/-- The body of as many groups with number 7 in one another. -/
theorem body_nested (depth : Nat) :
    Body ⟨7, .startGroup⟩ (depth + 1)
      (List.replicate depth 0x3b ++ List.replicate (depth + 1) 0x3c) := by
  have hstart : Key.IsSpelling [0x3b] ⟨7, .startGroup⟩ := Key.isSpelling_singleton (by decide)
  have hstop : Key.IsSpelling [0x3c] ⟨7, .endGroup⟩ := Key.isSpelling_singleton (by decide)
  induction depth with
  | zero => exact .group .nil hstop
  | succ depth ih =>
      have hgroup := Body.group (.cons hstart ih .nil) hstop
      rw [Nat.max_eq_left (Nat.zero_le _), List.append_nil, List.append_assoc,
        List.append_assoc, ← List.replicate_succ'] at hgroup
      exact hgroup

/-- A group is skipped with members whose numbers are retired and assigned, one of them with
a byte that is no UTF-8. A hundred groups in one another are skipped, behind a length they are
refused, and one more is refused in any case. -/
theorem decode_unknown_nested :
    decode .data ([0x12, 0x01, 0x61] ++
        ([0x3b, 0x08, 0x05, 0x12, 0x01, 0xff, 0x3c] ++ [0x12, 0x02, 0x62])) =
      decode .data ([0x12, 0x01, 0x61] ++ [0x12, 0x02, 0x62]) ∧
    decode .data ([] ++
        (([0x3b] ++ (List.replicate 99 0x3b ++ List.replicate 100 0x3c)) ++ [0x08])) =
      decode .data ([] ++ [0x08]) ∧
    readDelimited .data ([0xc9, 0x01] ++ ([] ++
        (([0x3b] ++ (List.replicate 99 0x3b ++ List.replicate 100 0x3c)) ++ [0x08]))) =
      .error (nestingError .data) ∧
    decode .data ([] ++
        (([0x3b] ++ (List.replicate 100 0x3b ++ List.replicate 101 0x3c)) ++ [0x08])) =
      .error (.decode (nestingError .data)) := by
  have hstart : Key.IsSpelling [0x3b] ⟨7, .startGroup⟩ := Key.isSpelling_singleton (by decide)
  have hunknown {depth : Nat} {body : List UInt8}
      (hbody : Body ⟨7, .startGroup⟩ depth body) :
      Segment.IsUnknown .data depth ⟨⟨7, .startGroup⟩, [0x3b], body⟩ :=
    have hunassigned : 7 ∉ Kind.data.fields.map Field.number := by decide
    have hreserved : 7 ∉ Kind.data.reserved := by decide
    ⟨hstart, hunassigned, hreserved, hbody⟩
  have hmembers : Body ⟨7, .startGroup⟩ 2 [0x08, 0x05, 0x12, 0x01, 0xff, 0x3c] := by
    have hstop : Key.IsSpelling [0x3c] ⟨7, .endGroup⟩ := Key.isSpelling_singleton (by decide)
    have hretired : Key.IsSpelling [0x08] ⟨1, .varint⟩ := Key.isSpelling_singleton (by decide)
    have hassigned : Key.IsSpelling [0x12] ⟨2, .lengthDelimited⟩ :=
      Key.isSpelling_singleton (by decide)
    have hnumber : FlatBody .varint [0x05] :=
      .varint (Varint.isSpelling_singleton (by decide))
    have hstring : FlatBody .lengthDelimited ([0x01] ++ [0xff]) :=
      .lengthDelimited (Varint.isSpelling_singleton (by decide))
    exact .group (.cons hretired (.flat hnumber) (.cons hassigned (.flat hstring) .nil)) hstop
  have hsplit : decode .data [0x12, 0x01, 0x61] = .ok ⟨["a"]⟩ := by decide +kernel
  have hempty : decode .data [] = .ok ⟨[]⟩ := by decide +kernel
  have hlength : Varint.IsSpelling [0xc9, 0x01] 201 :=
    ⟨by simp, ⟨0x01, rfl, by decide, by decide⟩, by decide, rfl⟩
  obtain ⟨hhundred, -, hdelimited, -⟩ := decode_unknown hempty (hunknown (body_nested 99))
    [0x08]
  exact ⟨(decode_unknown hsplit (hunknown hmembers) _).1 (by decide), hhundred (by decide),
    (hdelimited _ hlength).2 (by decide),
    (decode_unknown hempty (hunknown (body_nested 100)) _).2.1 (by decide)⟩

end Wire

end InferenceConfig
