import InferenceConfig.Proofs.Text.Acceptance
import InferenceConfig.Proofs.Text.Pairs
import InferenceConfig.Proofs.Wire.Record

/-!
# Faults That Never Arise

Readers are written for more than they can meet. A line of the text form is matched before its
body is read, so no body ends within an escape, although the reader of bodies has a fault for it.
A value is stored after its field was found in the table, so the message has a list for it,
although there is a fault for a field without one. In the binary form a record is skipped unless
the table has its number and the message stores a list for it; it makes no difference to ask the
table alone.

All of this rests on two facts: the readers of lines and of bodies pair backslashes in the same
way, and a message stores a list for exactly the numbers of its table.

## Main results

* `Text.Offends.ne_noStorage`, `Text.Offends.ne_dangling` — what is never wrong with a line;
* `Wire.mergeField_of_mem` — records of the fields of a kind are never skipped;
* `Document.faults_never_arise` — all of this together.
-/

namespace InferenceConfig

variable {kind : Kind} {field : Field}

/-! ### Fields and their lists -/

/-- A message stores a list for every field that is found by its name. -/
theorem Message.exists_values?_of_fieldWithName? {name : String}
    (h : kind.fieldWithName? name = some field) (message : Message kind) :
    ∃ list, message.values? field.number = some list := by
  obtain ⟨hfield, -⟩ := Kind.fieldWithName?_eq_some_iff.mp h
  exact ⟨_, message.values?_of_mem hfield⟩

namespace Text

variable {line : List Char} {phrase : String} {fault : Fault}

/-- No line is refused because a field has no list. -/
theorem Offends.ne_noStorage (h : Offends kind line phrase fault) (field : Field) :
    fault ≠ .noStorage field := by
  cases h <;> nofun

/-- No line is refused because an escape is not finished. -/
theorem Offends.ne_dangling (h : Offends kind line phrase fault) (body : List Char) :
    fault ≠ .badValue body .dangling := by
  cases h <;> nofun

end Text

namespace Wire

/-- A record with the number of a field of the kind is a string, which is appended to the list of
the field, or it is refused for what is wrong with the string. In neither case it is skipped. -/
theorem mergeField_of_mem (h : field ∈ kind.fields) (budget : Nat) (message : Message kind)
    (wireType : WireType) (bytes : List UInt8) :
    (∃ fault, readString wireType bytes = .error fault ∧
      mergeField budget message ⟨field.number, wireType⟩ bytes =
        (.error { kind, field? := some field, fault }, message)) ∨
    ∃ value rest longer, readString wireType bytes = .ok (value, rest) ∧
      message.push? field.number value = some longer ∧
      mergeField budget message ⟨field.number, wireType⟩ bytes = (.ok rest, longer) := by
  cases hstring : readString wireType bytes with
  | error fault =>
      have hrefused : Refused kind budget ⟨field.number, wireType⟩ bytes
          { kind, field? := some field, fault } :=
        .notString h rfl (readString_eq_error_iff.mp hstring)
      exact .inl ⟨fault, rfl, mergeField_eq_error_iff.mpr ⟨hrefused, rfl⟩⟩
  | ok found =>
      obtain ⟨value, rest⟩ := found
      have hmerge : mergeString wireType (message.values field.number) bytes =
          (.ok rest, message.values field.number ++ [value]) :=
        mergeString_eq_ok_iff.mpr ⟨value, hstring, rfl⟩
      refine .inr ⟨value, rest, _, rfl, message.push?_of_mem value h, ?_⟩
      rw [mergeField_of_field h rfl, hmerge]
      rfl

end Wire

/-- **Some faults never arise.** Let a line be matched as an entry. Its body ends with an even
number of backslashes, so not within an escape, and is never refused for that. It is refused
exactly if it has a pair that is not supported, and the error names the first one. If a field has
the name, then every message of the kind stores a list for it. So no text is refused because of an
escape that is not finished, or because there is no list for a field. In the binary form it makes
no difference that the message is asked for a list as well, and a record with the number of a
field is never skipped: it is appended to the list of the field, or refused as a string. -/
theorem Document.faults_never_arise (kind : Kind) :
    (∀ line name body, Line.readEntry? line = some (name, body) →
      Even (Escape.closingRun body) ∧ Escape.decode body ≠ .error .dangling ∧
      ((∃ fault, Escape.decode body = .error fault) ↔
        ∃ letter ∈ Escape.pairs body, letter ∉ Escape.supported) ∧
      (∀ fault, Escape.decode body = .error fault → ∃ letter,
        (Escape.pairs body).find? (fun letter => letter ∉ Escape.supported) = some letter ∧
        fault = .unsupported letter ∧
        fault.message = "unsupported escape \\" ++ String.singleton letter) ∧
      ∀ field, kind.fieldWithName? (String.ofList name) = some field →
        ∀ message : Message kind, ∃ list, message.values? field.number = some list) ∧
    (∀ text e, Text.parse kind text = .error e →
      (∀ field, e.fault ≠ .noStorage field) ∧ ∀ body, e.fault ≠ .badValue body .dangling) ∧
    (∀ budget (message : Message kind) key bytes,
      Wire.mergeField budget message key bytes =
        Wire.addOutcome message (Wire.readBody kind budget key bytes)) ∧
    ∀ field ∈ kind.fields, ∀ budget (message : Message kind) wireType bytes,
      (∃ fault, Wire.readString wireType bytes = .error fault ∧
        Wire.mergeField budget message ⟨field.number, wireType⟩ bytes =
          (.error { kind, field? := some field, fault }, message)) ∨
      ∃ value rest longer, Wire.readString wireType bytes = .ok (value, rest) ∧
        message.push? field.number value = some longer ∧
        Wire.mergeField budget message ⟨field.number, wireType⟩ bytes = (.ok rest, longer) := by
  refine ⟨fun line name body hline => ?_, fun text e herror => ?_,
    Wire.mergeField_eq_addOutcome, fun field hfield => Wire.mergeField_of_mem hfield⟩
  · obtain ⟨quote, -, -, hbody⟩ :=
      Line.isEntry_iff_exists_quote.mp (Line.isEntry_of_readEntry? hline)
    refine ⟨Escape.even_closingRun hbody, Escape.decode_ne_dangling hbody,
      Escape.exists_decode_eq_error_iff hbody, fun fault hfault => ?_,
      fun field hfield message => message.exists_values?_of_fieldWithName? hfield⟩
    obtain ⟨letter, hletter, rfl⟩ := (Escape.decode_eq_error_iff_find? hbody).mp hfault
    exact ⟨letter, hletter, rfl, rfl⟩
  · obtain ⟨_, _, _, _, -, -, -, hoffends, -⟩ := Text.addLines_eq_error_iff.mp herror
    exact ⟨hoffends.ne_noStorage, hoffends.ne_dangling⟩

/-- A body of three pairs and a quote of the other sort, where two pairs are not supported; a body
that ends with two backslashes; and a line that an odd number of backslashes leaves open. A tag in
the binary form is stored, even if nothing may be skipped. -/
theorem Document.faults_never_arise_model :
    Line.readEntry? "tag: \x27\\\\\x22\\q\\z\x27".toList =
      some ("tag".toList, "\\\\\x22\\q\\z".toList) ∧
    (∃ letter, Escape.decode "\\\\\x22\\q\\z".toList = .error (.unsupported letter) ∧
      (Escape.pairs "\\\\\x22\\q\\z".toList).find? (fun letter => letter ∉ Escape.supported) =
        some letter) ∧
    Line.readEntry? "tag: \x22a\\\\\x22".toList = some ("tag".toList, "a\\\\".toList) ∧
    Even (Escape.closingRun "a\\\\".toList) ∧
    (∃ list, (Message.empty .model).values? 5 = some list) ∧
    (∃ e, Text.parse .model "tag: \x22a\\\\\\\x22".toList = .error e ∧
      (∀ field, e.fault ≠ .noStorage field) ∧ ∀ body, e.fault ≠ .badValue body .dangling) ∧
    ∃ value rest longer, Wire.readString .lengthDelimited [0x01, 0x61] = .ok (value, rest) ∧
      (Message.empty .model).push? 5 value = some longer ∧
      Wire.mergeField 0 (Message.empty .model) ⟨5, .lengthDelimited⟩ [0x01, 0x61] =
        (.ok rest, longer) := by
  obtain ⟨hlines, hparse, -, hmerge⟩ := Document.faults_never_arise .model
  have hsingle : Line.readEntry? "tag: \x27\\\\\x22\\q\\z\x27".toList =
      some ("tag".toList, "\\\\\x22\\q\\z".toList) := by decide +kernel
  have hdouble : Line.readEntry? "tag: \x22a\\\\\x22".toList =
      some ("tag".toList, "a\\\\".toList) := by decide +kernel
  have hrefused : Escape.decode "\\\\\x22\\q\\z".toList = .error (.unsupported 'q') := by
    decide +kernel
  have hopen : Text.parse .model "tag: \x22a\\\\\\\x22".toList =
      .error ⟨.model, 1, .malformed "tag: \x22a\\\\\\\x22".toList⟩ := by decide +kernel
  obtain ⟨-, -, -, hreport, hstored⟩ := hlines _ _ _ hsingle
  obtain ⟨letter, hletter, hfault, -⟩ := hreport _ hrefused
  refine ⟨hsingle, ⟨letter, hrefused.trans (congrArg Except.error hfault), hletter⟩,
    hdouble, (hlines _ _ _ hdouble).1, hstored ⟨"tag", 5⟩ (by decide +kernel) _,
    ⟨_, hopen, hparse _ _ hopen⟩, ?_⟩
  have hstring : Wire.readString .lengthDelimited [0x01, 0x61] = .ok ("a", []) := by
    decide +kernel
  rcases hmerge ⟨"tag", 5⟩ (by decide) 0 (Message.empty .model) .lengthDelimited [0x01, 0x61] with
    ⟨fault, hfault, -⟩ | hmerged
  · simp [hstring] at hfault
  · exact hmerged

end InferenceConfig
