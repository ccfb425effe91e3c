import InferenceConfig.Proofs.Wire.RoundTrip

/-!
# Binary Documents That Are Cut Off

A document that is cut off behind a record holds the entries of the records before the cut. One
that is cut within a record is refused, wherever the cut is. A number of which the last byte is
missing does not end, and a string of which a byte is missing is shorter than its length. These
are the only two faults: the bytes of a string are not looked at before all of them are there,
and every number that is there is the one that was written.

## Main results

* `Wire.readString_cut`, `Wire.readRecord_cut` — a record that is cut off;
* `Wire.decode_cut` — a document that is cut off.
-/

namespace InferenceConfig

namespace Wire

variable {kind : Kind} {budget : Nat} {part missing : List UInt8}

/-- A string that is cut off is refused, within its length and behind it. -/
theorem readString_cut {bytes : List UInt8}
    (hcut : part ++ missing = Varint.encode bytes.length ++ bytes) (hmissing : missing ≠ []) :
    ∃ fault, readString .lengthDelimited part = .error fault ∧
      (fault = .invalidVarint ∨ fault = .underflow) := by
  rcases Message.cut_append hcut with ⟨digits, hdigits, hlength⟩ | ⟨content, rfl, hcontent⟩
  · have hread := Varint.read?_cut_eq_none hlength hdigits
    exact ⟨.invalidVarint, by simp [readString, hread], .inl rfl⟩
  · by_cases hsize : bytes.length < 0x10000000000000000
    · have hread := Varint.read?_encode content hsize
      have hshort : content.length < bytes.length := by
        have hpos := List.length_pos_iff.mpr hmissing
        rw [← hcontent, List.length_append]
        omega
      exact ⟨.underflow, by simp [readString, hread, hshort], .inr rfl⟩
    · have hread := Varint.read?_encode_eq_none content (Nat.le_of_not_lt hsize)
      exact ⟨.invalidVarint, by simp [readString, hread], .inl rfl⟩

/-- A record that is cut off is refused, within its key and behind it. -/
theorem readRecord_cut {entry : Field × String} (hfield : entry.1 ∈ kind.fields)
    (hcut : part ++ missing = (Segment.ofEntry entry).bytes) (hmissing : missing ≠ []) :
    ∃ e, readRecord kind budget part = .error e ∧
      (e.fault = .invalidVarint ∨ e.fault = .underflow) := by
  rcases Message.cut_append hcut with ⟨digits, hdigits, hstart⟩ | ⟨body, rfl, hbody⟩
  · have hread := Varint.read?_cut_eq_none hstart hdigits
    exact ⟨{ kind, fault := .invalidVarint }, by simp only [readRecord, Key.read, hread],
      .inl rfl⟩
  · obtain ⟨fault, hstring, hfault⟩ := readString_cut hbody hmissing
    have hreserved := Kind.number_notMem_reserved hfield
    refine ⟨{ kind, field? := some entry.1, fault }, ?_, hfault⟩
    simp only [readRecord, (isSpelling_start_ofEntry hfield).read body]
    rw [readBody, if_neg (by rwa [Kind.isReserved_iff]),
      Kind.fieldWithNumber?_eq_some_iff.mpr ⟨hfield, rfl⟩]
    simp only [hstring]

/-- An input that ends too early is refused by decoding as it is by reading. -/
theorem decode_of_readUntil_eq_some {records : List Record} {e : DecodeError}
    (h : readUntil kind 0 nestingBudget part = ⟨records, some e⟩)
    (hfault : e.fault = .invalidVarint ∨ e.fault = .underflow) :
    decode kind part = .error (.decode e) := by
  refine decode_eq_decode_iff_read.mpr ⟨read_eq_error_iff.mpr ⟨records, h⟩, ?_⟩
  rintro number rfl
  simp [reservedError] at hfault

/-- A document that is cut off holds the entries before the cut, if the cut is behind one of
them or at the start, and otherwise it is refused for ending too early. -/
theorem decode_cut {entries : List (Field × String)}
    (hfields : ∀ entry ∈ entries, entry.1 ∈ kind.fields)
    (hcut : part ++ missing = entries.flatMap fun entry => encodeEntry entry.1 entry.2) :
    (∃ before, before <+: entries ∧
        part = (before.flatMap fun entry => encodeEntry entry.1 entry.2) ∧
        decode kind part = .ok (before.foldl Message.addEntry (Message.empty kind))) ∨
      ∃ e, decode kind part = .error (.decode e) ∧
        (e.fault = .invalidVarint ∨ e.fault = .underflow) := by
  obtain ⟨before, rest, hpart, hbefore, hrest⟩ := Message.cut_flatMap hcut
  have hsegments : part = (before.map Segment.ofEntry).flatMap Segment.bytes ++ rest := by
    rw [hpart, List.flatMap_map]
    rfl
  have hfieldsBefore : ∀ entry ∈ before, entry.1 ∈ kind.fields :=
    fun entry hentry => hfields entry (hbefore.subset hentry)
  by_cases hsizes : ∀ entry ∈ before, entry.2.utf8ByteSize < 0x10000000000000000
  · have hreads := @reads_map_ofEntry kind nestingBudget before hfieldsBefore hsizes
    rcases hrest with rfl | ⟨entry, own, hentry, hne, hown, hrest⟩
    · rw [List.append_nil] at hpart hsegments
      refine .inl ⟨before, hbefore, hpart, decode_eq_ok_iff.mpr ⟨_, _, hsegments, hreads, ?_⟩⟩
      rw [addAll, List.foldl_map]
      rfl
    · have hfield := hfields entry (hentry.subset (List.mem_append_right before
        List.mem_cons_self))
      obtain ⟨e, hrecord, hfault⟩ :=
        @readRecord_cut kind nestingBudget rest own entry hfield hrest hown
      have hreading := readUntil_eq_some_iff.mpr ⟨_, rest, hsegments, hreads, hne, hrecord⟩
      exact .inr ⟨e, decode_of_readUntil_eq_some hreading hfault, hfault⟩
  · obtain ⟨found, field, hreading⟩ :=
      @readUntil_entries_of_long kind nestingBudget before hfieldsBefore hsizes rest
    rw [← hsegments] at hreading
    exact .inr ⟨_, decode_of_readUntil_eq_some hreading (.inl rfl), .inl rfl⟩

end Wire

end InferenceConfig
