import InferenceConfig.Proofs.Unicode.Utf8
import InferenceConfig.Proofs.Wire.Body
import InferenceConfig.Proofs.Wire.Record

/-!
# Records as They Stand in the Input

A segment is a record as it stands in the input: the spelling of its key, and its body. A
kind accepts a segment in two cases. The record of an assigned field is a string, that is a
length and as many bytes of UTF-8. The record of a field that is neither assigned nor
retired has any complete body within the budget. Reading a record succeeds exactly on these
segments, whatever follows them.

## Main definitions

* `Wire.Segment`, `Wire.Segment.bytes` — a record in the input, and its bytes;
* `Wire.Segment.IsComplete` — it is a record at all, whatever its field number;
* `Wire.Segment.Holds` — its body is a string;
* `Wire.Segment.Fits` — a kind accepts it;
* `Wire.Segment.Reads` — what it adds to the messages of a kind;
* `Wire.readRecord` — reads a record, without a message to merge it into.

## Main results

* `Wire.readString_eq_ok_iff` and `Wire.readRecord_eq_ok_iff` — what is read as a string,
  and as a record;
* `Wire.Segment.fits_iff_exists_reads` — the segments that a kind accepts are those that add
  something to its messages or are skipped;
* `Wire.Segment.IsComplete.append_inj`, `Wire.Segment.eq_of_flatMap_eq` — the first record of
  an input is unique, and so is the whole cut of bytes into records.
-/

namespace InferenceConfig

namespace Wire

/-- A record as it stands in the input. -/
structure Segment where
  /-- The key of the record. -/
  key : Key
  /-- The bytes of the key. -/
  start : List UInt8
  /-- The bytes of the body. -/
  body : List UInt8

namespace Segment

/-- The bytes of a record. -/
def bytes (segment : Segment) : List UInt8 :=
  segment.start ++ segment.body

/-- A segment is a record: its first bytes spell its key, and its body is complete. -/
structure IsComplete (segment : Segment) : Prop where
  /-- The first bytes spell the key. -/
  start : Key.IsSpelling segment.start segment.key
  /-- The other bytes are a body of the key. -/
  body : ∃ depth, Body segment.key depth segment.body

/-- The body of the record is a string: its length and its UTF-8 bytes. -/
structure Holds (segment : Segment) (value : String) : Prop where
  /-- The body has the layout of a string. -/
  wireType : segment.key.wireType = .lengthDelimited
  /-- The string comes behind a spelling of its length. -/
  body : ∃ length, Varint.IsSpelling length (Utf8.encode value.toList).length ∧
    segment.body = length ++ Utf8.encode value.toList

/-- The kind accepts the record, when as many as `budget` records may be nested in one
another. -/
structure Fits (kind : Kind) (budget : Nat) (segment : Segment) : Prop where
  /-- The first bytes spell the key. -/
  start : Key.IsSpelling segment.start segment.key
  /-- The field number is not retired. -/
  not_reserved : segment.key.number ∉ kind.reserved
  /-- The record of an assigned field is a string. -/
  assigned : segment.key.number ∈ kind.fields.map Field.number →
    ∃ value, segment.Holds value
  /-- The record of any other field has a complete body within the budget. -/
  unassigned : segment.key.number ∉ kind.fields.map Field.number →
    ∃ depth, depth ≤ budget ∧ Body segment.key depth segment.body

/-- What the record adds to the messages of the kind. -/
inductive Reads (kind : Kind) (budget : Nat) : Segment → Record → Prop
  | stored {field : Field} {value : String} {start length : List UInt8} :
      field ∈ kind.fields → Key.IsSpelling start ⟨field.number, .lengthDelimited⟩ →
      Varint.IsSpelling length (Utf8.encode value.toList).length →
      Reads kind budget
        ⟨⟨field.number, .lengthDelimited⟩, start, length ++ Utf8.encode value.toList⟩
        (.stored field value)
  | skipped {key : Key} {depth : Nat} {start body : List UInt8} :
      (∀ field ∈ kind.fields, field.number ≠ key.number) → key.number ∉ kind.reserved →
      Key.IsSpelling start key → Body key depth body → depth ≤ budget →
      Reads kind budget ⟨key, start, body⟩ (.skipped key)

variable {kind : Kind} {budget : Nat} {segment : Segment} {record : Record}

/-- A segment takes at least one byte. -/
theorem length_lt_length_append (h : Key.IsSpelling segment.start segment.key)
    (rest : List UInt8) : rest.length < (segment.bytes ++ rest).length := by
  have hpos := List.length_pos_iff.mpr h.ne_nil
  simp only [bytes, List.length_append]
  omega

/-- A segment holds one string. -/
theorem Holds.unique {value₁ value₂ : String} (h₁ : segment.Holds value₁)
    (h₂ : segment.Holds value₂) : value₁ = value₂ := by
  obtain ⟨length₁, hlength₁, hbody₁⟩ := h₁.body
  obtain ⟨length₂, hlength₂, hbody₂⟩ := h₂.body
  obtain ⟨-, -, hbytes⟩ := hlength₁.append_inj hlength₂ (hbody₁.symm.trans hbody₂)
  exact String.toList_inj.mp (Utf8.encode_injective hbytes)

/-- A segment that is read starts with a spelling of its key. -/
theorem Reads.start (h : segment.Reads kind budget record) :
    Key.IsSpelling segment.start segment.key := by
  cases h with
  | stored _ hstart _ => exact hstart
  | skipped _ _ hstart _ _ => exact hstart

/-- A segment that is read is complete, for a string is a body of its key as well. -/
theorem Reads.isComplete (h : segment.Reads kind budget record) : segment.IsComplete := by
  refine ⟨h.start, ?_⟩
  cases h with
  | stored _ _ hlength => exact ⟨1, .flat (.lengthDelimited hlength)⟩
  | skipped _ _ _ hbody _ => exact ⟨_, hbody⟩

/-- A segment that is read has no retired number. -/
theorem Reads.number_notMem_reserved (h : segment.Reads kind budget record) :
    segment.key.number ∉ kind.reserved := by
  cases h with
  | stored hfield _ _ => exact Kind.number_notMem_reserved hfield
  | skipped _ hreserved _ _ _ => exact hreserved

/-- The records that a kind accepts are those that it reads. -/
theorem fits_iff_exists_reads :
    segment.Fits kind budget ↔ ∃ record, segment.Reads kind budget record := by
  constructor
  · intro h
    obtain ⟨⟨number, wireType⟩, start, body⟩ := segment
    by_cases hnumber : number ∈ kind.fields.map Field.number
    · obtain ⟨value, hwireType, length, hlength, hbody⟩ := h.assigned hnumber
      obtain ⟨field, hfield, rfl⟩ := List.mem_map.mp hnumber
      simp only at hwireType hbody
      subst hwireType hbody
      exact ⟨.stored field value, .stored hfield h.start hlength⟩
    · obtain ⟨depth, hbudget, hbody⟩ := h.unassigned hnumber
      refine ⟨.skipped ⟨number, wireType⟩, .skipped (fun field hfield hfound => ?_)
        h.not_reserved h.start hbody hbudget⟩
      exact hnumber (List.mem_map.mpr ⟨field, hfield, hfound⟩)
  · rintro ⟨record, h⟩
    refine ⟨h.start, h.number_notMem_reserved, fun hnumber => ?_, fun hnumber => ?_⟩
    · cases h with
      | @stored _ value _ length _ _ hlength => exact ⟨value, rfl, length, hlength, rfl⟩
      | skipped hunknown _ _ _ _ =>
          obtain ⟨field, hfield, hfound⟩ := List.mem_map.mp hnumber
          exact absurd hfound (hunknown field hfield)
    · cases h with
      | stored hfield _ _ => exact absurd (List.mem_map.mpr ⟨_, hfield, rfl⟩) hnumber
      | skipped _ _ _ hbody hbudget => exact ⟨_, hbudget, hbody⟩

/-- The first record of an input is unique. -/
theorem IsComplete.append_inj {segment₁ segment₂ : Segment} {rest₁ rest₂ : List UInt8}
    (h₁ : segment₁.IsComplete) (h₂ : segment₂.IsComplete)
    (happend : segment₁.bytes ++ rest₁ = segment₂.bytes ++ rest₂) :
    segment₁ = segment₂ ∧ rest₁ = rest₂ := by
  obtain ⟨key₁, start₁, body₁⟩ := segment₁
  obtain ⟨key₂, start₂, body₂⟩ := segment₂
  obtain ⟨hstart₁, depth₁, hbody₁⟩ := h₁
  obtain ⟨hstart₂, depth₂, hbody₂⟩ := h₂
  simp only [bytes, List.append_assoc] at hstart₁ hstart₂ hbody₁ hbody₂ happend
  obtain ⟨rfl, rfl, htail⟩ := hstart₁.append_inj hstart₂ happend
  obtain ⟨rfl, rfl⟩ := hbody₁.append_inj hbody₂ htail
  exact ⟨rfl, rfl⟩

/-- A segment has the byte of a key at least. -/
theorem IsComplete.bytes_ne_nil (h : segment.IsComplete) : segment.bytes ≠ [] := by
  intro hnil
  exact h.start.ne_nil (List.append_eq_nil_iff.mp hnil).1

/-- Records at the start of other records are the first ones of these. Induction on the records
at the start. -/
theorem exists_append_of_flatMap_append {segments found : List Segment} {rest : List UInt8}
    (hsegments : ∀ segment ∈ segments, segment.IsComplete)
    (hfound : ∀ segment ∈ found, segment.IsComplete)
    (happend : segments.flatMap bytes ++ rest = found.flatMap bytes) :
    ∃ later, found = segments ++ later ∧ later.flatMap bytes = rest := by
  induction segments generalizing found with
  | nil => exact ⟨found, rfl, happend.symm⟩
  | cons segment segments ih =>
      obtain ⟨hsegment, hsegments⟩ := List.forall_mem_cons.mp hsegments
      rw [List.flatMap_cons, List.append_assoc] at happend
      cases found with
      | nil => exact absurd (List.append_eq_nil_iff.mp happend).1 hsegment.bytes_ne_nil
      | cons first found =>
          obtain ⟨hfirst, hothers⟩ := List.forall_mem_cons.mp hfound
          rw [List.flatMap_cons] at happend
          obtain ⟨rfl, htail⟩ := hsegment.append_inj hfirst happend
          obtain ⟨later, rfl, hrest⟩ := ih hsegments hothers htail
          exact ⟨later, rfl, hrest⟩

/-- Bytes are cut into records in one way only. -/
theorem eq_of_flatMap_eq {segments found : List Segment}
    (hsegments : ∀ segment ∈ segments, segment.IsComplete)
    (hfound : ∀ segment ∈ found, segment.IsComplete)
    (h : segments.flatMap bytes = found.flatMap bytes) : segments = found := by
  rw [← List.append_nil (segments.flatMap bytes)] at h
  obtain ⟨later, rfl, hnil⟩ := exists_append_of_flatMap_append hsegments hfound h
  cases later with
  | nil => exact (List.append_nil segments).symm
  | cons first later =>
      have hfirst := hfound first (List.mem_append_right segments List.mem_cons_self)
      rw [List.flatMap_cons] at hnil
      exact absurd (List.append_eq_nil_iff.mp hnil).1 hfirst.bytes_ne_nil

end Segment

/-! ### Reading a string -/

/-- A string is read exactly from a spelling of its length and its UTF-8 bytes, whatever
follows. -/
theorem readString_eq_ok_iff {wireType : WireType} {value : String}
    {bytes rest : List UInt8} :
    readString wireType bytes = .ok (value, rest) ↔
      wireType = .lengthDelimited ∧
        ∃ length, Varint.IsSpelling length (Utf8.encode value.toList).length ∧
          bytes = length ++ Utf8.encode value.toList ++ rest := by
  rw [readString]
  constructor
  · intro h
    split at h
    · simp at h
    · next hwireType =>
        refine ⟨Decidable.of_not_not hwireType, ?_⟩
        split at h
        · simp at h
        · next n tail hread =>
            obtain ⟨length, rfl, hlength⟩ := Varint.read?_eq_some_iff.mp hread
            split at h
            · simp at h
            · next hfit =>
                split at h
                · simp at h
                · next text htext =>
                    obtain ⟨rfl, rfl⟩ := Prod.mk.inj (Except.ok.inj h)
                    have hbytes := Utf8.decode_eq_ok_iff.mp htext
                    have hcount : (Utf8.encode text).length = n := by
                      rw [← hbytes, List.length_take]
                      omega
                    rw [String.toList_ofList, hcount, ← hbytes]
                    refine ⟨length, hlength, ?_⟩
                    rw [List.append_assoc, List.take_append_drop]
  · rintro ⟨rfl, length, hlength, rfl⟩
    rw [if_neg (by simp), List.append_assoc]
    simp only [hlength.read? (Utf8.encode value.toList ++ rest)]
    rw [if_neg (by simp), List.take_left, List.drop_left, Utf8.decode_encode]
    simp only [String.ofList_toList]

/-! ### Reading a record -/

/-- Reads the record at the start of the bytes: what it adds to a message, and what follows
it. -/
def readRecord (kind : Kind) (budget : Nat) (bytes : List UInt8) :
    Except DecodeError (Record × List UInt8) :=
  match Key.read bytes with
  | .error fault => .error { kind, fault }
  | .ok (key, rest) => readBody kind budget key rest

variable {kind : Kind} {budget : Nat}

/-- What is read behind a key is what the record with that key adds. -/
theorem readBody_eq_ok_iff {key : Key} {start : List UInt8}
    (hstart : Key.IsSpelling start key) {record : Record} {bytes rest : List UInt8} :
    readBody kind budget key bytes = .ok (record, rest) ↔
      ∃ body, bytes = body ++ rest ∧
        (⟨key, start, body⟩ : Segment).Reads kind budget record := by
  rw [readBody]
  constructor
  · intro h
    split at h
    · simp at h
    · next hreserved =>
        rw [Kind.isReserved_iff] at hreserved
        split at h
        · next field hfield =>
            obtain ⟨hmem, hnumber⟩ := Kind.fieldWithNumber?_eq_some_iff.mp hfield
            split at h
            · simp at h
            · next value tail hread =>
                obtain ⟨rfl, rfl⟩ := Prod.mk.inj (Except.ok.inj h)
                obtain ⟨hwireType, length, hlength, rfl⟩ := readString_eq_ok_iff.mp hread
                obtain ⟨number, wireType⟩ := key
                simp only at hnumber hwireType
                subst hnumber hwireType
                exact ⟨_, rfl, .stored hmem hstart hlength⟩
        · next hnone =>
            split at h
            · simp at h
            · next tail hskip =>
                obtain ⟨rfl, rfl⟩ := Prod.mk.inj (Except.ok.inj h)
                obtain ⟨body, depth, rfl, hbody, hbudget⟩ := skip_eq_ok_iff.mp hskip
                have hunknown := Kind.fieldWithNumber?_eq_none_iff.mp hnone
                exact ⟨body, rfl, .skipped hunknown hreserved hstart hbody hbudget⟩
  · rintro ⟨body, rfl, h⟩
    have hreserved := h.number_notMem_reserved
    rw [if_neg (by rwa [Kind.isReserved_iff])]
    cases h with
    | @stored field value _ length hfield _ hlength =>
        have hread : readString .lengthDelimited
            (length ++ Utf8.encode value.toList ++ rest) = .ok (value, rest) :=
          readString_eq_ok_iff.mpr ⟨rfl, length, hlength, rfl⟩
        rw [Kind.fieldWithNumber?_eq_some_iff.mpr ⟨hfield, rfl⟩]
        simp only [hread]
    | @skipped _ depth _ _ hunknown _ _ hbody hbudget =>
        have hskip : skip budget key (body ++ rest) = .ok rest :=
          skip_eq_ok_iff.mpr ⟨body, depth, rfl, hbody, hbudget⟩
        rw [Kind.fieldWithNumber?_eq_none_iff.mpr hunknown]
        simp only [hskip]

/-- A record is read exactly from the segments that the kind accepts, whatever follows. -/
theorem readRecord_eq_ok_iff {record : Record} {bytes rest : List UInt8} :
    readRecord kind budget bytes = .ok (record, rest) ↔
      ∃ segment : Segment, bytes = segment.bytes ++ rest ∧
        segment.Reads kind budget record := by
  rw [readRecord]
  constructor
  · intro h
    split at h
    · simp at h
    · next key tail hread =>
        obtain ⟨start, rfl, hstart⟩ := Key.read_eq_ok_iff.mp hread
        obtain ⟨body, rfl, hreads⟩ := (readBody_eq_ok_iff hstart).mp h
        exact ⟨⟨key, start, body⟩, (List.append_assoc ..).symm, hreads⟩
  · rintro ⟨⟨key, start, body⟩, rfl, h⟩
    have hstart : Key.IsSpelling start key := h.start
    simp only [Segment.bytes, List.append_assoc, hstart.read (body ++ rest)]
    exact (readBody_eq_ok_iff hstart).mpr ⟨body, rfl, h⟩

/-- A record that a kind accepts is read, whatever follows. -/
theorem Segment.Reads.readRecord {segment : Segment} {record : Record}
    (h : segment.Reads kind budget record) (rest : List UInt8) :
    Wire.readRecord kind budget (segment.bytes ++ rest) = .ok (record, rest) :=
  readRecord_eq_ok_iff.mpr ⟨segment, rfl, h⟩

/-- A record takes at least one byte. -/
theorem length_of_readRecord {record : Record} {bytes rest : List UInt8}
    (h : readRecord kind budget bytes = .ok (record, rest)) :
    rest.length < bytes.length := by
  obtain ⟨segment, rfl, hreads⟩ := readRecord_eq_ok_iff.mp h
  exact Segment.length_lt_length_append hreads.start rest

end Wire

end InferenceConfig
