import InferenceConfig.Document.Codec
import InferenceConfig.Proofs.Json.Size
import InferenceConfig.Proofs.Text.Acceptance
import InferenceConfig.Proofs.Wire.Acceptance
import Mathlib.Data.List.Flatten

/-!
# Decoded Documents

A document is decoded exactly if the reader of its format accepts it. Then no value of the
message has more bytes than the document: a binary document holds the bytes of every value, and
an escape in text or JSON takes at least as many bytes as what it stands for. So a value from a
document of less than `2 ^ 64` bytes has a length of at most 64 bits, and it can be written in
all formats and read back.

## Main results

* `Text.fitsIn_of_parse`, `Wire.fitsIn_of_decode` — sizes of values in text and binary;
* `Document.decode_text_eq_ok_iff`, `Document.decode_binary_eq_ok_iff`,
  `Document.decode_json_eq_ok_iff` — which documents of a format are decoded;
* `Document.fitsIn_of_decode` — sizes of values in any format.
-/

namespace InferenceConfig

/-! ### Text -/

/-- A part of a text has no more bytes than the text. -/
theorem Utf8.length_encode_le {part text : List Char} (h : part.Sublist text) :
    (Utf8.encode part).length ≤ (Utf8.encode text).length :=
  (h.flatMap Utf8.encodeChar).length_le

/-- A body spells a value of at most as many bytes: an escape takes two bytes and stands for
one. -/
theorem Escape.Spells.length_encode_le {quote : Char} {body value : List Char}
    (h : Escape.Spells quote body value) :
    (Utf8.encode value).length ≤ (Utf8.encode body).length := by
  have htable : ∀ pair ∈ Escape.table, (Utf8.encodeChar pair.2).length = 1 := by decide
  simp only [Utf8.encode] at *
  induction h with
  | nil => exact Nat.le_refl _
  | plain _ _ _ ih =>
      simp only [List.flatMap_cons, List.length_append]
      exact Nat.add_le_add_left ih _
  | @escape letter c _ _ hpair _ ih =>
      have hone : (Utf8.encodeChar c).length = 1 := htable _ hpair
      have hbackslash : (Utf8.encodeChar '\\').length = 1 := rfl
      simp only [List.flatMap_cons, List.length_append]
      omega

namespace Text

variable {kind : Kind} {message : Message kind} {line text : List Char}

/-- Every line is a part of its text. -/
theorem sublist_of_mem_split (h : line ∈ Line.split text) : line.Sublist text := by
  fun_induction Line.split text generalizing line with
  | case1 => simp at h
  | case2 rest ih =>
      rcases List.mem_cons.mp h with rfl | hmem
      · exact List.nil_sublist _
      · exact ((ih hmem).cons _).cons _
  | case3 rest _ ih =>
      rcases List.mem_cons.mp h with rfl | hmem
      · exact List.nil_sublist _
      · exact (ih hmem).cons _
  | case4 c rest _ _ hsplit ih =>
      rw [List.mem_singleton.mp h]
      exact (List.nil_sublist rest).cons_cons c
  | case5 c rest _ _ first lines hsplit ih =>
      rw [hsplit] at ih
      rcases List.mem_cons.mp h with rfl | hmem
      · exact (ih List.mem_cons_self).cons_cons c
      · exact (ih (List.mem_cons_of_mem _ hmem)).cons c

/-- What a line adds has no more bytes than the line. -/
theorem utf8ByteSize_of_contributes {entries : List (Field × String)}
    (h : Contributes kind line entries) :
    ∀ entry ∈ entries, entry.2.utf8ByteSize ≤ (Utf8.encode line).length := by
  cases h with
  | blank _ => nofun
  | comment _ => nofun
  | @entry _ field quote body value _ hframed hspells =>
      obtain ⟨before, gap, between, tail, hline, -, -, -⟩ := hframed
      have hbody : body.Sublist line := by
        rw [hline]
        refine .trans ?_ (List.sublist_append_right _ _)
        refine .trans ?_ (List.sublist_append_right _ _)
        refine .trans (.cons _ ?_) (List.sublist_append_right _ _)
        refine .trans (.cons _ ?_) (List.sublist_append_right _ _)
        exact List.sublist_append_left _ _
      rw [List.forall_mem_singleton, ← Utf8.length_encode_toList, String.toList_ofList]
      exact Nat.le_trans hspells.length_encode_le (Utf8.length_encode_le hbody)

/-- No value is longer than the line that contributes it. -/
theorem utf8ByteSize_of_forall₂ {lines : List (List Char)}
    {additions : List (List (Field × String))} {size : Nat}
    (h : List.Forall₂ (Contributes kind) lines additions)
    (hlines : ∀ line ∈ lines, (Utf8.encode line).length ≤ size) :
    ∀ entry ∈ additions.flatten, entry.2.utf8ByteSize ≤ size := by
  induction h with
  | nil => nofun
  | cons hline _ ih =>
      obtain ⟨hfirst, hlines⟩ := List.forall_mem_cons.mp hlines
      rw [List.flatten_cons, List.forall_mem_append]
      exact ⟨fun entry hentry =>
        Nat.le_trans (utf8ByteSize_of_contributes hline entry hentry) hfirst, ih hlines⟩

/-- No value of a message has more bytes than the text that it is read from. -/
theorem fitsIn_of_parse (h : parse kind text = .ok message) :
    message.FitsIn (Utf8.encode text).length := by
  obtain ⟨additions, hadditions, rfl⟩ := addLines_eq_ok_iff.mp h
  have hentries := utf8ByteSize_of_forall₂ hadditions fun line hline =>
    Utf8.length_encode_le (sublist_of_mem_split hline)
  intro field hfield value hvalue
  rw [Message.values_foldl_addEntry _ _ hfield, Message.values_empty hfield,
    List.nil_append] at hvalue
  obtain ⟨entry, hentry, hselected⟩ := List.mem_filterMap.mp hvalue
  rw [Option.ite_none_right_eq_some, Option.some.injEq] at hselected
  exact hselected.2 ▸ hentries entry hentry

end Text

/-! ### Binary documents -/

namespace Wire

variable {kind : Kind}

/-- What is read from segments has no more bytes than the segments. -/
theorem utf8ByteSize_of_reads {budget number : Nat} {segments : List Segment}
    {records : List Record} (h : List.Forall₂ (Segment.Reads kind budget) segments records) :
    ∀ value ∈ records.filterMap (Record.valueFor? number),
      value.utf8ByteSize ≤ (segments.flatMap Segment.bytes).length := by
  induction h with
  | nil => nofun
  | @cons segment record segments records hsegment _ ih =>
      intro value hvalue
      rw [List.flatMap_cons, List.length_append]
      rw [List.filterMap_cons] at hvalue
      have hrest : value ∈ records.filterMap (Record.valueFor? number) →
          value.utf8ByteSize ≤
            segment.bytes.length + (segments.flatMap Segment.bytes).length :=
        fun hmem => Nat.le_trans (ih value hmem) (Nat.le_add_left _ _)
      cases hsegment with
      | skipped _ _ _ _ _ => exact hrest hvalue
      | @stored field stored start length _ _ _ =>
          simp only [Record.valueFor?] at hvalue
          split at hvalue
          · next hnone => exact hrest hvalue
          · next hsome =>
              rcases List.mem_cons.mp hvalue with rfl | hmem
              · rw [Option.ite_none_right_eq_some, Option.some.injEq] at hsome
                simp only [Segment.bytes, List.length_append, ← hsome.2,
                  ← Utf8.length_encode_toList]
                omega
              · exact hrest hmem

/-- No value of a message has more bytes than the binary document that it is read from. -/
theorem fitsIn_of_decode {message : Message kind} {bytes : List UInt8}
    (h : decode kind bytes = .ok message) : message.FitsIn bytes.length := by
  obtain ⟨segments, records, rfl, hreads, rfl⟩ := decode_eq_ok_iff.mp h
  intro field hfield value hvalue
  rw [values_addAll _ _ hfield, Message.values_empty hfield, List.nil_append] at hvalue
  exact utf8ByteSize_of_reads hreads value hvalue

end Wire

/-! ### Documents -/

namespace Document

/-- Only the events of decoding depend on the origin that is named for a document. -/
theorem snd_decodeTraced (kind : Kind) (format : Format) (origin : String)
    (bytes : List UInt8) :
    (decodeTraced kind format origin bytes).2 = decode kind format bytes := by
  cases format with
  | json => rfl
  | text =>
      simp only [decode, decodeTraced]
      cases Utf8.decode bytes with
      | error fault => rfl
      | ok text =>
          dsimp only
          split <;> rfl
  | binary => rfl

/-- A text document is decoded exactly if it is UTF-8 and its text is parsed. -/
theorem decode_text_eq_ok_iff {kind : Kind} {bytes : List UInt8} {message : Message kind} :
    decode kind .text bytes = .ok message ↔
      ∃ text, bytes = Utf8.encode text ∧ Text.parse kind text = .ok message := by
  simp only [decode, decodeTraced, ← Utf8.decode_eq_ok_iff]
  cases Utf8.decode bytes with
  | error fault => simp
  | ok text => cases hparse : Text.parse kind text <;> simp [hparse]

/-- A binary document is decoded in its own way, and its errors are those of the binary form. -/
theorem decode_binary_eq (kind : Kind) (bytes : List UInt8) :
    decode kind .binary bytes = (Wire.decode kind bytes).mapError Error.wire := by
  simp only [decode, decodeTraced, Wire.decode]
  cases Wire.decodeTraced kind bytes with
  | mk keys outcome =>
      cases outcome with
      | error source => rfl
      | ok message => rfl

/-- A binary document is decoded exactly if it is in the binary form. -/
theorem decode_binary_eq_ok_iff {kind : Kind} {bytes : List UInt8} {message : Message kind} :
    decode kind .binary bytes = .ok message ↔ Wire.decode kind bytes = .ok message := by
  rw [decode_binary_eq, mapError_eq_ok_iff]

/-- A binary document is refused for the reason that it is refused in the binary form. -/
theorem decode_binary_eq_error_iff {kind : Kind} {bytes : List UInt8} {e : Error} :
    decode kind .binary bytes = .error e ↔
      ∃ source, Wire.decode kind bytes = .error source ∧ e = .wire source := by
  rw [decode_binary_eq, mapError_eq_error_iff]
  exact exists_congr fun source => and_congr_right fun _ => eq_comm

/-- A JSON document is decoded exactly if it is read as a message. -/
theorem decode_json_eq_ok_iff {kind : Kind} {bytes : List UInt8} {message : Message kind} :
    decode kind .json bytes = .ok message ↔ Json.read kind bytes = .ok message := by
  simp only [decode, decodeTraced]
  cases Json.read kind bytes <;> simp

/-- No value of a message has more bytes than the document that it is read from. -/
theorem fitsIn_of_decode {kind : Kind} {format : Format} {bytes : List UInt8}
    {message : Message kind} (h : decode kind format bytes = .ok message) :
    message.FitsIn bytes.length := by
  cases format with
  | json => exact Json.fitsIn_of_read (decode_json_eq_ok_iff.mp h)
  | text =>
      obtain ⟨text, rfl, hparse⟩ := decode_text_eq_ok_iff.mp h
      exact Text.fitsIn_of_parse hparse
  | binary => exact Wire.fitsIn_of_decode (decode_binary_eq_ok_iff.mp h)

end Document

end InferenceConfig
