import InferenceConfig.Proofs.Wire.Acceptance

/-!
# One Document Read as Either Kind

The field tables of the two kinds share the number 2 only, and one number is retired for
models alone. A document is cut into records in the same way for both, so the kinds differ in
which records they refuse: every document of a model is a document of the data, and its
splits are the signature names. The other way round, the records with the number 5 have to be
strings, which are the tags, and there must be no record with the number 6.

## Main results

* `Wire.reads_of_decode` — the records of a document are those that its segments are read as;
* `Wire.Segment.Fits.of_tables` — a segment that one kind accepts, read by another one;
* `Wire.values_eq_of_decode` — a number that both kinds assign has the same list in both;
* `Wire.decode_model_iff_decode_data` — the two kinds as a whole.
-/

namespace InferenceConfig

namespace Wire

variable {kind other : Kind} {budget : Nat} {segments : List Segment}

/-! ### The segments of a document -/

/-- The records of a document are those that its segments are read as. -/
theorem reads_of_decode {message : Message kind}
    (hcomplete : ∀ segment ∈ segments, segment.IsComplete)
    (h : decode kind (segments.flatMap Segment.bytes) = .ok message) :
    ∃ records, List.Forall₂ (Segment.Reads kind nestingBudget) segments records ∧
      addAll (Message.empty kind) records = message := by
  obtain ⟨found, records, hbytes, hreads, hmessage⟩ := decode_eq_ok_iff.mp h
  have hfound := Segment.eq_of_flatMap_eq hcomplete (isComplete_of_reads hreads) hbytes
  subst hfound
  exact ⟨records, hreads, hmessage⟩

/-- The kind accepts every segment of a document. -/
theorem fits_of_decode {message : Message kind}
    (hcomplete : ∀ segment ∈ segments, segment.IsComplete)
    (h : decode kind (segments.flatMap Segment.bytes) = .ok message) :
    ∀ segment ∈ segments, segment.Fits kind nestingBudget := by
  obtain ⟨records, hreads, -⟩ := reads_of_decode hcomplete h
  exact forall_fits_iff_exists_reads.mpr ⟨records, hreads⟩

/-- The list of a field consists of the strings of the segments with its number. -/
theorem holds_of_decode {message : Message kind} {field : Field} (hfield : field ∈ kind.fields)
    (hcomplete : ∀ segment ∈ segments, segment.IsComplete)
    (h : decode kind (segments.flatMap Segment.bytes) = .ok message) :
    List.Forall₂ Segment.Holds
      (segments.filter fun segment => segment.key.number = field.number)
      (message.values field.number) := by
  obtain ⟨records, hreads, rfl⟩ := reads_of_decode hcomplete h
  rw [values_addAll _ _ hfield, Message.values_empty hfield, List.nil_append]
  exact holds_of_reads hfield hreads

/-- Segments that the kind accepts are a document. -/
theorem exists_decode_of_fits (h : ∀ segment ∈ segments, segment.Fits kind nestingBudget) :
    ∃ message, decode kind (segments.flatMap Segment.bytes) = .ok message := by
  obtain ⟨records, hreads⟩ := forall_fits_iff_exists_reads.mp h
  exact ⟨_, decode_eq_ok_iff.mpr ⟨segments, records, rfl, hreads, rfl⟩⟩

/-- A document is cut into records. -/
theorem exists_segments_of_decode {bytes : List UInt8} {message : Message kind}
    (h : decode kind bytes = .ok message) :
    ∃ segments : List Segment, bytes = segments.flatMap Segment.bytes ∧
      ∀ segment ∈ segments, segment.IsComplete := by
  obtain ⟨segments, records, hbytes, hreads, -⟩ := decode_eq_ok_iff.mp h
  exact ⟨segments, hbytes, isComplete_of_reads hreads⟩

/-- There is one way only to cut a document into records. -/
theorem existsUnique_segments_of_decode {bytes : List UInt8} {message : Message kind}
    (h : decode kind bytes = .ok message) :
    ∃! segments : List Segment, bytes = segments.flatMap Segment.bytes ∧
      ∀ segment ∈ segments, segment.IsComplete := by
  obtain ⟨segments, rfl, hcomplete⟩ := exists_segments_of_decode h
  refine ⟨segments, ⟨rfl, hcomplete⟩, fun found hfound => ?_⟩
  exact Segment.eq_of_flatMap_eq hfound.2 hcomplete hfound.1.symm

/-! ### A segment for another kind -/

/-- A record whose body is a string has a body without any record in it. -/
theorem Segment.Holds.body_one {segment : Segment} {value : String} (h : segment.Holds value) :
    Body segment.key 1 segment.body := by
  obtain ⟨length, hlength, hbody⟩ := h.body
  have hflat : FlatBody segment.key.wireType segment.body := by
    rw [h.wireType, hbody]
    exact .lengthDelimited hlength
  exact .flat hflat

/-- A segment that one kind accepts is accepted by another one that has not retired its
number, if it is a string where the other kind wants one. -/
theorem Segment.Fits.of_tables {segment : Segment} (hbudget : 1 ≤ budget)
    (h : segment.Fits kind budget) (hreserved : segment.key.number ∉ other.reserved)
    (hassigned : segment.key.number ∈ other.fields.map Field.number →
      ∃ value, segment.Holds value) : segment.Fits other budget := by
  refine ⟨h.start, hreserved, hassigned, fun _ => ?_⟩
  by_cases hnumber : segment.key.number ∈ kind.fields.map Field.number
  · obtain ⟨value, hvalue⟩ := h.assigned hnumber
    exact ⟨1, hbudget, hvalue.body_one⟩
  · exact h.unassigned hnumber

/-- A number that both kinds assign has the same list in both. -/
theorem values_eq_of_decode {bytes : List UInt8} {message : Message kind}
    {found : Message other} {field field' : Field} (hfield : field ∈ kind.fields)
    (hfield' : field' ∈ other.fields) (hnumber : field.number = field'.number)
    (h : decode kind bytes = .ok message) (h' : decode other bytes = .ok found) :
    message.values field.number = found.values field'.number := by
  obtain ⟨segments, rfl, hcomplete⟩ := exists_segments_of_decode h
  have hholds := holds_of_decode hfield hcomplete h
  have hholds' := holds_of_decode hfield' hcomplete h'
  rw [← hnumber] at hholds' ⊢
  have hunique : Relator.RightUnique Segment.Holds := fun _ _ _ => Segment.Holds.unique
  exact List.right_unique_forall₂' hunique hholds hholds'

/-! ### Models and data -/

section

variable {segment : Segment}

/-- A segment of a model is a segment of the data. -/
theorem Segment.Fits.data_of_model (h : segment.Fits .model nestingBudget) :
    segment.Fits .data nestingBudget := by
  have hreserved := h.not_reserved
  refine h.of_tables (by decide) ?_ fun hnumber => h.assigned ?_
  · simp only [Kind.reserved, List.mem_cons, List.not_mem_nil, or_false, not_or] at hreserved ⊢
    exact ⟨hreserved.1, hreserved.2.1, hreserved.2.2.1⟩
  · simp only [Kind.fields, List.map_cons, List.map_nil, List.mem_cons, List.not_mem_nil,
      or_false] at hnumber ⊢
    exact .inl hnumber

/-- A segment of the data is a segment of a model, unless it has the number that is retired for
models alone, or the number of the tags and no string. -/
theorem Segment.Fits.model_of_data_iff (h : segment.Fits .data nestingBudget) :
    segment.Fits .model nestingBudget ↔
      segment.key.number ≠ 6 ∧ (segment.key.number = 5 → ∃ value, segment.Holds value) := by
  constructor
  · intro hmodel
    have hreserved := hmodel.not_reserved
    have hassigned := hmodel.assigned
    simp only [Kind.reserved, Kind.fields, List.map_cons, List.map_nil, List.mem_cons,
      List.not_mem_nil, or_false, not_or] at hreserved hassigned
    exact ⟨hreserved.2.2.2, fun hnumber => hassigned (.inr hnumber)⟩
  · rintro ⟨hsix, hfive⟩
    have hreserved := h.not_reserved
    have hassigned := h.assigned
    refine h.of_tables (by decide) ?_ fun hnumber => ?_
    · simp only [Kind.reserved, List.mem_cons, List.not_mem_nil, or_false, not_or]
        at hreserved ⊢
      exact ⟨hreserved.1, hreserved.2.1, hreserved.2.2, hsix⟩
    · simp only [Kind.fields, List.map_cons, List.map_nil, List.mem_cons, List.not_mem_nil,
        or_false] at hnumber hassigned
      exact hnumber.elim hassigned hfive

end

/-- **The two kinds differ in two numbers.** A document of a model is one of the data, and its
splits are the signature names. A document of the data is cut into records in one way only,
and it is one of a model exactly if none of them has the number 6 and those with the number 5
are strings. Then the signature names are the splits, and the tags are these strings. -/
theorem decode_model_iff_decode_data {bytes : List UInt8} :
    (∀ model : ModelSpec, decode .model bytes = .ok model →
      ∃ data : DataSpec, decode .data bytes = .ok data ∧
        data.exampleSplits = model.signatureNames) ∧
    (∀ data : DataSpec, decode .data bytes = .ok data →
      (∃! segments : List Segment, bytes = segments.flatMap Segment.bytes ∧
        ∀ segment ∈ segments, segment.IsComplete) ∧
      ∀ segments : List Segment, bytes = segments.flatMap Segment.bytes →
        (∀ segment ∈ segments, segment.IsComplete) →
        ((∀ segment ∈ segments, segment.key.number ≠ 6) ∧
          (∀ segment ∈ segments, segment.key.number = 5 → ∃ value, segment.Holds value) ↔
        ∃ model : ModelSpec, decode .model bytes = .ok model ∧
          model.signatureNames = data.exampleSplits ∧
          List.Forall₂ Segment.Holds
            (segments.filter fun segment => segment.key.number = 5) model.tags)) := by
  have hnames : ⟨"model_signature_name", 2⟩ ∈ Kind.model.fields := List.mem_cons_self
  have htags : ⟨"tag", 5⟩ ∈ Kind.model.fields := List.mem_cons_of_mem _ List.mem_cons_self
  have hsplits : ⟨"example_splits", 2⟩ ∈ Kind.data.fields := List.mem_cons_self
  have hshared (model : ModelSpec) (data : DataSpec) (hmodel : decode .model bytes = .ok model)
      (hdata : decode .data bytes = .ok data) : model.signatureNames = data.exampleSplits :=
    values_eq_of_decode hnames hsplits rfl hmodel hdata
  constructor
  · intro model hmodel
    obtain ⟨segments, rfl, hcomplete⟩ := exists_segments_of_decode hmodel
    obtain ⟨data, hdata⟩ := exists_decode_of_fits fun segment hsegment =>
      (fits_of_decode hcomplete hmodel segment hsegment).data_of_model
    exact ⟨data, hdata, (hshared model data hmodel hdata).symm⟩
  · intro data hdata
    refine ⟨existsUnique_segments_of_decode hdata, ?_⟩
    rintro segments rfl hcomplete
    have hfits := fits_of_decode hcomplete hdata
    constructor
    · rintro ⟨hsix, hfive⟩
      obtain ⟨model, hmodel⟩ := exists_decode_of_fits fun segment hsegment =>
        (hfits segment hsegment).model_of_data_iff.mpr
          ⟨hsix segment hsegment, hfive segment hsegment⟩
      exact ⟨model, hmodel, hshared model data hmodel hdata,
        holds_of_decode htags hcomplete hmodel⟩
    · rintro ⟨model, hmodel, -, -⟩
      have hboth (segment : Segment) (hsegment : segment ∈ segments) :=
        (hfits segment hsegment).model_of_data_iff.mp
          (fits_of_decode hcomplete hmodel segment hsegment)
      exact ⟨fun segment hsegment => (hboth segment hsegment).1,
        fun segment hsegment => (hboth segment hsegment).2⟩

/-- A split, a tag and a record of a field that neither kind assigns. -/
theorem decode_model_iff_decode_data_tag :
    (∃ data : DataSpec,
      decode .data [0x12, 0x01, 0x61, 0x2a, 0x01, 0x62, 0x38, 0x05] = .ok data ∧
        data.exampleSplits = ["a"]) ∧
    ∃ model : ModelSpec,
      decode .model [0x12, 0x01, 0x61, 0x2a, 0x01, 0x62, 0x38, 0x05] = .ok model ∧
        model.signatureNames = ["a"] ∧
        List.Forall₂ Segment.Holds
          [⟨⟨5, .lengthDelimited⟩, [0x2a], [0x01, 0x62]⟩] model.tags := by
  obtain ⟨hdata, hmodel⟩ :=
    @decode_model_iff_decode_data [0x12, 0x01, 0x61, 0x2a, 0x01, 0x62, 0x38, 0x05]
  have hstring (byte : UInt8) : FlatBody .lengthDelimited ([0x01] ++ [byte]) :=
    .lengthDelimited (Varint.isSpelling_singleton (by decide))
  have hcomplete : ∀ segment ∈ ([⟨⟨2, .lengthDelimited⟩, [0x12], [0x01, 0x61]⟩,
      ⟨⟨5, .lengthDelimited⟩, [0x2a], [0x01, 0x62]⟩, ⟨⟨7, .varint⟩, [0x38], [0x05]⟩] :
      List Segment), segment.IsComplete := by
    have hnumber : FlatBody .varint [0x05] := .varint (Varint.isSpelling_singleton (by decide))
    simp only [List.forall_mem_cons, List.not_mem_nil, false_implies, implies_true, and_true]
    exact ⟨⟨Key.isSpelling_singleton (by decide), 1, .flat (hstring 0x61)⟩,
      ⟨Key.isSpelling_singleton (by decide), 1, .flat (hstring 0x62)⟩,
      ⟨Key.isSpelling_singleton (by decide), 1, .flat hnumber⟩⟩
  have htag : (⟨⟨5, .lengthDelimited⟩, [0x2a], [0x01, 0x62]⟩ : Segment).Holds "b" :=
    ⟨rfl, [0x01], Varint.isSpelling_singleton (by decide), rfl⟩
  refine ⟨hdata ⟨["a"], ["b"]⟩ (by decide +kernel), ?_⟩
  obtain ⟨-, htags⟩ := hmodel ⟨["a"]⟩ (by decide +kernel)
  refine (htags _ (by rfl) hcomplete).mp ⟨by simp, ?_⟩
  simp only [List.forall_mem_cons, List.not_mem_nil, false_implies, implies_true, and_true]
  exact ⟨by simp, fun _ => ⟨"b", htag⟩, by simp⟩

end Wire

end InferenceConfig
