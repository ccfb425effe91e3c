import InferenceConfig.Proofs.Document.Conversion
import InferenceConfig.Proofs.Json.Locality
import InferenceConfig.Proofs.Text.Truncation
import InferenceConfig.Proofs.Wire.Truncation

/-!
# Documents That Are Cut Off

A document that is cut off is refused, or its message holds the first entries of the message that
was written. No value is shortened: in each format there is a sign that ends a value, and what
is in the value cannot be taken for it. In binary this is the length before the value, in text
the closing quote of a line, and in JSON the closing bracket of the whole document. So how much
is left of a message is seen from where the cut is.

## Main results

* `Json.read_cut` — a JSON document that is cut off;
* `Document.decode_binary_cut`, `Document.exists_of_decode_binary_cut` — a binary document that
  is cut off;
* `Document.exists_of_decode_text_cut` — a text that is cut off;
* `Document.entries_isPrefix_of_decode_cut` — what is left of a message in any format;
* `Document.decode_truncated` — all of this, and where the cut is.
-/

namespace InferenceConfig

/-! ### The end of a JSON document -/

namespace Json

variable {kind : Kind} {message found : Message kind} {part missing : List UInt8}

/-- A document of which some bytes are missing at its end is read only if these are white space,
and the only white space there is the line feed behind the closing bracket. -/
theorem read_cut (hcut : part ++ missing = Utf8.encode (write message))
    (hmissing : missing ≠ []) :
    read kind part = .ok found ↔ found = message ∧ missing = [0x0A] := by
  obtain ⟨inside, hbytes, hspells⟩ := exists_spells_write message
  have hends : part ++ missing = (inside ++ [0x7D]) ++ [0x0A] := by simp [hcut, hbytes]
  constructor
  · intro h
    have hwhole := read_encode_write message
    rw [← hcut, read_append_eq_ok_iff h] at hwhole
    obtain ⟨rfl, hblank⟩ := hwhole
    rcases List.append_eq_append_iff.mp hends with ⟨own, hbracket, hown⟩ | ⟨later, -, hfeed⟩
    · rcases List.eq_nil_or_concat own with rfl | ⟨start, last, rfl⟩
      · exact ⟨rfl, hown⟩
      · -- Then the closing bracket is missing too, and it is not white space.
        rw [List.concat_eq_append] at hown hbracket
        rw [← List.append_assoc] at hbracket
        obtain ⟨-, hlast⟩ := List.append_inj' hbracket rfl
        obtain rfl := List.singleton_inj.mp hlast
        exact absurd (hblank 0x7D (by simp [hown])) (by decide)
    · cases later with
      | nil => exact ⟨rfl, hfeed.symm⟩
      | cons byte later =>
          rw [List.cons_append, List.cons.injEq] at hfeed
          exact absurd (List.append_eq_nil_iff.mp hfeed.2.symm).2 hmissing
  · rintro ⟨rfl, rfl⟩
    rw [← List.append_cancel_right hends] at hspells
    have hdocument : SpellsDocument (objectOf found) ([] ++ (part ++ [])) :=
      .mk isBlank_nil hspells isBlank_nil
    rw [List.nil_append, List.append_nil] at hdocument
    exact (read_eq_ok_iff hdocument).mpr (denotes_objectOf found)

end Json

namespace Document

variable {kind : Kind} {message found : Message kind} {entries : List (Field × String)}
  {part : List UInt8}

/-! ### Binary documents -/

/-- A binary document that is cut off holds the entries of the records before the cut, and the
cut is at the end of a record, or the document is refused for ending too early. -/
theorem decode_binary_cut (hcut : part <+: encode .binary message) :
    (∃ entries, entries <+: message.entries ∧
        part = (entries.flatMap fun entry => Wire.encodeEntry entry.1 entry.2) ∧
        decode kind .binary part = .ok (entries.foldl Message.addEntry (Message.empty kind))) ∨
      ∃ source : Wire.DecodeError, decode kind .binary part = .error (.wire (.decode source)) ∧
        (source.fault = .invalidVarint ∨ source.fault = .underflow) := by
  obtain ⟨missing, hmissing⟩ := hcut
  have hfields : ∀ entry ∈ message.entries, entry.1 ∈ kind.fields :=
    fun entry hentry => Message.mem_fields_of_mem_entries hentry
  rcases Wire.decode_cut hfields hmissing with ⟨entries, hentries, hpart, hread⟩ | ⟨e, he, hfault⟩
  · exact .inl ⟨entries, hentries, hpart, decode_binary_eq_ok_iff.mpr hread⟩
  · exact .inr ⟨e, decode_binary_eq_error_iff.mpr ⟨_, he, rfl⟩, hfault⟩

/-- A binary document that is cut off and decoded ends behind the records of its entries. -/
theorem exists_of_decode_binary_cut (hcut : part <+: encode .binary message)
    (h : decode kind .binary part = .ok found) :
    ∃ entries, entries <+: message.entries ∧
      part = (entries.flatMap fun entry => Wire.encodeEntry entry.1 entry.2) ∧
      entries.foldl Message.addEntry (Message.empty kind) = found := by
  rcases decode_binary_cut hcut with ⟨entries, hentries, hpart, hread⟩ | ⟨source, hsource, -⟩
  · exact ⟨entries, hentries, hpart, Except.ok.inj (hread.symm.trans h)⟩
  · simp [h] at hsource

/-- A binary document that is cut off and refused ends too early. -/
theorem error_of_decode_binary_cut {e : Error} (hcut : part <+: encode .binary message)
    (h : decode kind .binary part = .error e) :
    ∃ source, e = .wire (.decode source) ∧
      (source.fault = .invalidVarint ∨ source.fault = .underflow) := by
  rcases decode_binary_cut hcut with ⟨entries, -, -, hread⟩ | ⟨source, hsource, hfault⟩
  · simp [h] at hread
  · exact ⟨source, Except.error.inj (h.symm.trans hsource), hfault⟩

/-- The records of the first entries of a message are read as these entries. -/
theorem decode_binary_flatMap (hfits : Wire.LengthsFit message)
    (hentries : entries <+: message.entries) :
    decode kind .binary (entries.flatMap fun entry => Wire.encodeEntry entry.1 entry.2) =
      .ok (entries.foldl Message.addEntry (Message.empty kind)) := by
  have hkept := Message.entries_foldl_addEntry hentries
  have hshort : Wire.LengthsFit (entries.foldl Message.addEntry (Message.empty kind)) := by
    intro entry hentry
    rw [hkept] at hentry
    exact hfits entry (hentries.subset hentry)
  have hread := decode_encode hshort .binary
  rw [encode, Wire.encode, hkept] at hread
  exact hread

/-! ### Texts -/

/-- A text that is cut off holds the entries of its first lines, and the cut is before or behind
the end of a line, or it is refused. -/
theorem exists_of_decode_text_cut (hcut : part <+: encode .text message)
    (h : decode kind .text part = .ok found) :
    ∃ entries, entries <+: message.entries ∧
      (part = Utf8.encode (entries.flatMap fun entry => Text.renderEntry entry.1 entry.2) ∨
        part ++ [0x0A] =
          Utf8.encode (entries.flatMap fun entry => Text.renderEntry entry.1 entry.2)) ∧
      entries.foldl Message.addEntry (Message.empty kind) = found := by
  obtain ⟨text, rfl, hparse⟩ := decode_text_eq_ok_iff.mp h
  obtain ⟨missing, hmissing⟩ := hcut
  obtain ⟨later, hlater⟩ := Utf8.isPrefix_of_encode_append hmissing
  have hfields : ∀ entry ∈ message.entries, entry.1 ∈ kind.fields :=
    fun entry hentry => Message.mem_fields_of_mem_entries hentry
  rcases Text.parse_cut hfields hlater with ⟨entries, hentries, hpart, hread⟩ | ⟨_, _, herror⟩
  · rw [hparse, Except.ok.injEq] at hread
    refine ⟨entries, hentries, hpart.imp (congrArg Utf8.encode) fun hfeed => ?_, hread.symm⟩
    rw [← hfeed, Utf8.encode_append]
    rfl
  · rw [hparse] at herror
    simp at herror

/-- The lines of entries are read as these entries, with or without the last line feed. -/
theorem decode_text_of_flatMap (hfields : ∀ entry ∈ entries, entry.1 ∈ kind.fields)
    (h : part = Utf8.encode (entries.flatMap fun entry => Text.renderEntry entry.1 entry.2) ∨
      part ++ [0x0A] =
        Utf8.encode (entries.flatMap fun entry => Text.renderEntry entry.1 entry.2)) :
    decode kind .text part = .ok (entries.foldl Message.addEntry (Message.empty kind)) := by
  rw [decode_text_eq_ok_iff]
  rcases h with rfl | hfeed
  · exact ⟨_, rfl, Text.parse_flatMap_renderEntry hfields⟩
  · rcases List.eq_nil_or_concat entries with rfl | ⟨before, last, rfl⟩
    · simp [Utf8.encode] at hfeed
    · rw [List.concat_eq_append] at hfields hfeed ⊢
      have hlines := Text.flatMap_renderEntry_concat before last
      rw [hlines, Utf8.encode_append] at hfeed
      exact ⟨_, List.append_cancel_right hfeed,
        Text.parse_of_append_lineFeed hfields hlines.symm⟩

/-! ### JSON documents -/

/-- A JSON document that is cut off is decoded only if its last line feed is all that is
missing. -/
theorem decode_json_cut_iff (hcut : part <+: encode .json message)
    (hstrict : part ≠ encode .json message) :
    decode kind .json part = .ok found ↔
      found = message ∧ part ++ [0x0A] = encode .json message := by
  obtain ⟨missing, hmissing⟩ := hcut
  have hne : missing ≠ [] := by
    rintro rfl
    exact hstrict (by rw [← hmissing, List.append_nil])
  rw [decode_json_eq_ok_iff, Json.read_cut hmissing hne, ← hmissing, List.append_right_inj]
  simp only [eq_comm]

/-! ### All formats -/

/-- What is decoded from the start of a document holds the first entries of its message. -/
theorem entries_isPrefix_of_decode_cut {format : Format}
    (hcut : part <+: encode format message) (h : decode kind format part = .ok found) :
    found.entries <+: message.entries := by
  cases format with
  | json =>
      by_cases hwhole : part = encode .json message
      · rw [hwhole, decode_json_eq_ok_iff, encode, Json.read_encode_write] at h
        exact Except.ok.inj h ▸ List.prefix_rfl
      · obtain ⟨rfl, -⟩ := (decode_json_cut_iff hcut hwhole).mp h
        exact List.prefix_rfl
  | text =>
      obtain ⟨entries, hentries, -, rfl⟩ := exists_of_decode_text_cut hcut h
      rwa [Message.entries_foldl_addEntry hentries]
  | binary =>
      obtain ⟨entries, hentries, -, rfl⟩ := exists_of_decode_binary_cut hcut h
      rwa [Message.entries_foldl_addEntry hentries]

/-- The documents that are decoded to the first entries of a message, if each one that is decoded
is the document of some of them, and all of these documents are decoded. -/
theorem exists_ok_iff {result : Except Error (Message kind)}
    {Holds : List (Field × String) → Prop}
    (hread : ∀ found, result = .ok found → ∃ entries, entries <+: message.entries ∧
      Holds entries ∧ entries.foldl Message.addEntry (Message.empty kind) = found)
    (hwritten : ∀ entries, entries <+: message.entries → Holds entries →
      result = .ok (entries.foldl Message.addEntry (Message.empty kind)))
    (entries : List (Field × String)) :
    (∃ found, result = .ok found ∧ found.entries = entries) ↔
      entries <+: message.entries ∧ Holds entries := by
  constructor
  · rintro ⟨found, hfound, rfl⟩
    obtain ⟨before, hbefore, hholds, rfl⟩ := hread found hfound
    rw [Message.entries_foldl_addEntry hbefore]
    exact ⟨hbefore, hholds⟩
  · rintro ⟨hentries, hholds⟩
    exact ⟨_, hwritten entries hentries hholds, Message.entries_foldl_addEntry hentries⟩

/-- **A document that is cut off loses its last values, and no value is changed.** If it is
decoded at all, then its message holds the first entries of the message that was written. Which
of them these are is seen from the cut.

A binary document is decoded exactly if the cut is at the start or at the end of a record, and it
holds the records before the cut. (A length of more than 64 bits would not be read back, but no
memory holds a value of such a length.) Otherwise it is refused for a number that does not end
or for bytes that are missing, and for no other reason: not for a retired number, and not for
what is left of a character. A text is decoded exactly if the cut is at the start, or at the end
of a line, before or behind its line feed. A JSON document that is not whole is decoded exactly
if only its last line feed is missing, and then it holds everything. -/
theorem decode_truncated (message : Message kind) (part : List UInt8) :
    (∀ format found, part <+: encode format message → decode kind format part = .ok found →
      found.entries <+: message.entries) ∧
    (part <+: encode .binary message →
      (Wire.LengthsFit message → ∀ entries,
        (∃ found, decode kind .binary part = .ok found ∧ found.entries = entries) ↔
          entries <+: message.entries ∧
            part = entries.flatMap fun entry => Wire.encodeEntry entry.1 entry.2) ∧
      ∀ e, decode kind .binary part = .error e → ∃ source, e = .wire (.decode source) ∧
        (source.fault = .invalidVarint ∨ source.fault = .underflow)) ∧
    (part <+: encode .text message → ∀ entries,
      (∃ found, decode kind .text part = .ok found ∧ found.entries = entries) ↔
        entries <+: message.entries ∧
          (part =
              Utf8.encode (entries.flatMap fun entry => Text.renderEntry entry.1 entry.2) ∨
            part ++ [0x0A] =
              Utf8.encode (entries.flatMap fun entry => Text.renderEntry entry.1 entry.2))) ∧
    (part <+: encode .json message → part ≠ encode .json message → ∀ found,
      decode kind .json part = .ok found ↔
        found = message ∧ part ++ [0x0A] = encode .json message) := by
  refine ⟨fun format found => entries_isPrefix_of_decode_cut,
    fun hcut => ⟨fun hfits => ?_, fun e => error_of_decode_binary_cut hcut⟩,
    fun hcut => ?_, fun hcut hstrict found => decode_json_cut_iff hcut hstrict⟩
  · refine exists_ok_iff (fun found => exists_of_decode_binary_cut hcut) ?_
    rintro entries hentries rfl
    exact decode_binary_flatMap hfits hentries
  · refine exists_ok_iff (fun found => exists_of_decode_text_cut hcut) ?_
    intro entries hentries hpart
    have hfields : ∀ entry ∈ entries, entry.1 ∈ kind.fields :=
      fun entry hentry => Message.mem_fields_of_mem_entries (hentries.subset hentry)
    exact decode_text_of_flatMap hfields hpart

/-- A message is cut off behind its first record and within a character in binary, before the
first line feed in text, and before the last line feed in JSON. -/
theorem decode_truncated_model :
    let message : Message .model := ⟨["é"], ["t"]⟩
    let first : List (Field × String) := [(⟨"model_signature_name", 2⟩, "é")]
    let line := Utf8.encode "model_signature_name: \"é\"".toList
    first <+: message.entries ∧
      ([0x12, 0x02, 0xC3, 0xA9] <+: encode .binary message ∧
        ∃ found, decode .model .binary [0x12, 0x02, 0xC3, 0xA9] = .ok found ∧
          found.entries = first) ∧
      ([0x12, 0x02, 0xC3] <+: encode .binary message ∧
        ∃ source, decode .model .binary [0x12, 0x02, 0xC3] = .error (.wire (.decode source)) ∧
          (source.fault = .invalidVarint ∨ source.fault = .underflow)) ∧
      (line <+: encode .text message ∧
        ∃ found, decode .model .text line = .ok found ∧ found.entries = first) ∧
      decode .model .json (encode .json message).dropLast = .ok message := by
  intro message first line
  have hfits : Wire.LengthsFit message := by
    unfold Wire.LengthsFit
    decide
  have hwhole : [0x12, 0x02, 0xC3, 0xA9] <+: encode .binary message := by decide +kernel
  have hpart : [0x12, 0x02, 0xC3] <+: encode .binary message := by decide +kernel
  have hfirst : line <+: encode .text message := by decide +kernel
  have hline : decode .model .text line = .ok ⟨["é"], []⟩ := by decide +kernel
  have herror : (decode .model .binary [0x12, 0x02, 0xC3]).isOk = false := by decide +kernel
  obtain ⟨hentries, -, htext, -⟩ := decode_truncated message line
  obtain ⟨-, hrecord, -⟩ := decode_truncated message [0x12, 0x02, 0xC3, 0xA9]
  obtain ⟨-, hcut, -⟩ := decode_truncated message [0x12, 0x02, 0xC3]
  obtain ⟨-, -, -, hjson⟩ := decode_truncated message (encode .json message).dropLast
  refine ⟨hentries .text _ hfirst hline, ⟨hwhole, ?_⟩, ⟨hpart, ?_⟩, ⟨hfirst, ?_⟩, ?_⟩
  · exact ((hrecord hwhole).1 hfits first).mpr (by decide +kernel)
  · cases h : decode .model .binary [0x12, 0x02, 0xC3] with
    | ok found => simp [h, Except.isOk, Except.toBool] at herror
    | error e =>
        obtain ⟨source, rfl, hfault⟩ := (hcut hpart).2 e h
        exact ⟨source, rfl, hfault⟩
  · exact (htext hfirst first).mpr (by decide +kernel)
  · exact (hjson (List.dropLast_prefix _) (by decide +kernel) message).mpr
      ⟨rfl, by decide +kernel⟩

end Document

end InferenceConfig
