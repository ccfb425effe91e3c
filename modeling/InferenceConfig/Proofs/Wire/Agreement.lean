import InferenceConfig.Proofs.Wire.Reading
import InferenceConfig.Wire.Decode

/-!
# Decoding Agrees with Merging

A document is decoded in one loop and merged in another. Both check for retired numbers, at
different places and with errors of different types, and only the first loop reports what it
skips. They are shown to be the same reading: a document is decoded to what is merged into
the empty message, and `WireError.ofDecodeError` turns the error of the one into that of the
other.

That is an equivalence of errors because a retired number is found by its own check only.
No key, string or skipped body gives that fault, however it is malformed.

## Main definitions

* `WireError.ofDecodeError` — the error of decoding for an error of merging;
* `Wire.reservedError` — the error of merging a retired number.

## Main results

* `Wire.error_of_readRecord`, `Wire.error_of_read` — which errors merging can give;
* `Wire.decode_eq_mapError_read` — decoding is merging into the empty message, up to the
  type of errors;
* `Wire.message_eq_reservedError_iff` — a retired number is the only error with its wording;
* `Wire.decode_agrees_with_read` — the two ways of reading a document, outcome by outcome.
-/

namespace InferenceConfig

namespace Wire

/-- Whether the fault is a retired number. -/
def Fault.isReserved : Fault → Bool
  | .reserved _ _ => true
  | _ => false

/-- The error of merging a record with a retired number. -/
def reservedError (kind : Kind) (number : Nat) : DecodeError :=
  { kind, fault := .reserved kind number }

end Wire

/-- What decoding reports for an error of merging: a retired number has an error of its
own. -/
def WireError.ofDecodeError (e : Wire.DecodeError) : WireError :=
  match e.fault with
  | .reserved kind number => .reservedField kind number
  | _ => .decode e

namespace Wire

/-- An error that is not about a retired number keeps its form. -/
theorem ofDecodeError_of_not_isReserved {e : DecodeError}
    (h : e.fault.isReserved = false) : WireError.ofDecodeError e = .decode e := by
  rw [WireError.ofDecodeError]
  split
  · next hfault => simp [hfault, Fault.isReserved] at h
  · rfl

/-! ### Retired numbers are found by their own check -/

/-- No key is at fault for being retired: reading it does not look at the table. -/
theorem isReserved_of_keyRead {bytes : List UInt8} {fault : Fault}
    (h : Key.read bytes = .error fault) : fault.isReserved = false := by
  rw [Key.read] at h
  split at h
  · obtain rfl := Except.error.inj h
    rfl
  · split at h
    · next hvalue =>
        obtain rfl := Except.error.inj h
        rw [Key.ofValue] at hvalue
        split at hvalue
        · obtain rfl := Except.error.inj hvalue
          rfl
        · split at hvalue
          · obtain rfl := Except.error.inj hvalue
            rfl
          · split at hvalue
            · obtain rfl := Except.error.inj hvalue
              rfl
            · simp at hvalue
    · simp at h

/-- A string that cannot be read is no retired number. -/
theorem NotString.isReserved {wireType : WireType} {bytes : List UInt8} {fault : Fault}
    (h : NotString wireType bytes fault) : fault.isReserved = false := by
  cases h with
  | wrongWireType _ => rfl
  | noLength _ _ => rfl
  | cutOff _ _ _ => rfl
  | notUtf8 _ _ _ _ => rfl

/-- Skipping bytes does not look at the table. -/
theorem isReserved_of_skipBytes {count : Nat} {bytes : List UInt8} {fault : Fault}
    (h : skipBytes count bytes = .error fault) : fault.isReserved = false := by
  rw [skipBytes] at h
  split at h
  · simp at h
  · obtain rfl := Except.error.inj h
    rfl

/-- Skipping a value that is not a group does not look at the table. -/
theorem isReserved_of_skipFlat {wireType : WireType} {bytes : List UInt8} {fault : Fault}
    (h : skipFlat wireType bytes = .error fault) : fault.isReserved = false := by
  cases wireType with
  | varint =>
      simp only [skipFlat] at h
      split at h
      · obtain rfl := Except.error.inj h
        rfl
      · simp at h
  | sixtyFourBit => exact isReserved_of_skipBytes h
  | lengthDelimited =>
      simp only [skipFlat] at h
      split at h
      · obtain rfl := Except.error.inj h
        rfl
      · exact isReserved_of_skipBytes h
  | startGroup => simp [skipFlat] at h
  | endGroup =>
      obtain rfl := Except.error.inj h
      rfl
  | thirtyTwoBit => exact isReserved_of_skipBytes h

/-- Skipping groups does not look at the table, so numbers within them may be retired. -/
theorem isReserved_of_skipGroups {budget : Nat} {groups : List Nat} {bytes : List UInt8}
    {fault : Fault} (h : skipGroups budget groups bytes = .error fault) :
    fault.isReserved = false := by
  fun_induction skipGroups budget groups bytes with
  | case1 => simp at h
  | case2 _ _ _ _ hread =>
      obtain rfl := Except.error.inj h
      exact isReserved_of_keyRead hread
  | case3 _ _ _ _ _ _ ih => exact ih h
  | case4 =>
      obtain rfl := Except.error.inj h
      rfl
  | case5 =>
      obtain rfl := Except.error.inj h
      rfl
  | case6 _ _ _ _ _ _ _ _ _ ih => exact ih h
  | case7 _ _ _ _ _ _ _ _ _ _ hskip =>
      obtain rfl := Except.error.inj h
      exact isReserved_of_skipFlat hskip
  | case8 _ _ _ _ _ _ _ _ _ _ _ ih => exact ih h

/-- Skipping a record does not look at the table. -/
theorem isReserved_of_skip {budget : Nat} {key : Key} {bytes : List UInt8} {fault : Fault}
    (h : skip budget key bytes = .error fault) : fault.isReserved = false := by
  rw [skip] at h
  split at h
  · obtain rfl := Except.error.inj h
    rfl
  · split at h
    · exact isReserved_of_skipGroups h
    · exact isReserved_of_skipFlat h

/-! ### The error of a record -/

variable {kind : Kind}

/-- The errors of what follows a key: for a retired number the one error that says so, and
for any other number an error with another fault. -/
theorem error_of_readBody {budget : Nat} {key : Key} {bytes : List UInt8}
    {e : DecodeError} (h : readBody kind budget key bytes = .error e) :
    e.kind = kind ∧
      (key.number ∈ kind.reserved ∧ e = reservedError kind key.number ∨
        key.number ∉ kind.reserved ∧ e.fault.isReserved = false) := by
  cases readBody_eq_error_iff.mp h with
  | retired hretired => exact ⟨rfl, .inl ⟨hretired, rfl⟩⟩
  | notString hfield hnumber hstring =>
      have hreserved : key.number ∉ kind.reserved :=
        hnumber ▸ Kind.number_notMem_reserved hfield
      exact ⟨rfl, .inr ⟨hreserved, hstring.isReserved⟩⟩
  | notSkipped _ hreserved hskip => exact ⟨rfl, .inr ⟨hreserved, isReserved_of_skip hskip⟩⟩

/-- The errors of a record: the one that says that its number is retired, as soon as its key
is read, or one with another fault. -/
theorem error_of_readRecord {budget : Nat} {bytes : List UInt8} {e : DecodeError}
    (h : readRecord kind budget bytes = .error e) :
    e.kind = kind ∧
      ((∃ key start rest, bytes = start ++ rest ∧ Key.IsSpelling start key ∧
          key.number ∈ kind.reserved ∧ e = reservedError kind key.number) ∨
        e.fault.isReserved = false) := by
  rw [readRecord] at h
  split at h
  · next hread =>
      obtain rfl := Except.error.inj h
      exact ⟨rfl, .inr (isReserved_of_keyRead hread)⟩
  · next key rest hread =>
      obtain ⟨start, rfl, hstart⟩ := Key.read_eq_ok_iff.mp hread
      obtain ⟨hkind, ⟨hreserved, he⟩ | ⟨-, hfault⟩⟩ := error_of_readBody h
      · exact ⟨hkind, .inl ⟨key, start, rest, rfl, hstart, hreserved, he⟩⟩
      · exact ⟨hkind, .inr hfault⟩

/-- The errors of an input are those of its records. -/
theorem error_of_read {bytes : List UInt8} {e : DecodeError}
    (h : read kind bytes = .error e) :
    e.kind = kind ∧ ((∃ number, e = reservedError kind number) ∨
      e.fault.isReserved = false) := by
  obtain ⟨records, hreading⟩ := read_eq_error_iff.mp h
  obtain ⟨_, _, _, _, _, hrecord⟩ := readUntil_eq_some_iff.mp hreading
  obtain ⟨hkind, ⟨key, _, _, _, _, _, he⟩ | hfault⟩ := error_of_readRecord hrecord
  · exact ⟨hkind, .inl ⟨key.number, he⟩⟩
  · exact ⟨hkind, .inr hfault⟩

/-! ### Both loops agree -/

/-- The decoding loop reads what the merging loop reads. Induction on the run of the
decoding: its own check for retired numbers comes before that of the record, and gives the
error that the check of the record would give. -/
theorem decodeInto_eq (message : Message kind) (bytes : List UInt8) :
    (decodeInto message bytes).2 =
      (merge message bytes).toExcept.mapError WireError.ofDecodeError := by
  rw [merge, mergeUntil_eq]
  fun_induction decodeInto message bytes with
  | case1 message bytes hempty =>
      rw [List.isEmpty_iff.mp hempty, ← List.length_nil, readUntil_length]
      rfl
  | case2 message bytes hne fault hkey =>
      have hread : readRecord kind nestingBudget bytes = .error { kind, fault } := by
        simp only [readRecord, hkey]
      rw [readUntil_of_error (List.length_pos_iff.mpr (by simpa using hne)) hread]
      have hfault := ofDecodeError_of_not_isReserved
        (e := { kind, fault }) (isReserved_of_keyRead hkey)
      exact congrArg Except.error hfault.symm
  | case3 message bytes hne key body hkey hreserved =>
      have hread : readRecord kind nestingBudget bytes =
          .error (reservedError kind key.number) := by
        simp only [readRecord, hkey, readBody, if_pos hreserved]
        rfl
      rw [readUntil_of_error (List.length_pos_iff.mpr (by simpa using hne)) hread]
      rfl
  | case4 message bytes hne key body hkey hreserved unknown e merged hfield =>
      have hbody := readBody_eq_error_iff.mpr (mergeField_eq_error_iff.mp hfield).1
      have hread : readRecord kind nestingBudget bytes = .error e := by
        simp only [readRecord, hkey, hbody]
      rw [readUntil_of_error (List.length_pos_iff.mpr (by simpa using hne)) hread]
      rw [Kind.isReserved_iff] at hreserved
      -- Decoding has asked the table before, so merging never finds the number retired.
      obtain ⟨-, ⟨hmem, -⟩ | ⟨-, hfault⟩⟩ := error_of_readBody hbody
      · exact absurd hmem hreserved
      · exact congrArg Except.error (ofDecodeError_of_not_isReserved hfault).symm
  | case5 message bytes hne key body hkey hreserved unknown rest merged hfield later outcome
      hlater ih =>
      obtain ⟨record, hbody, rfl⟩ := mergeField_eq_ok_iff.mp hfield
      have hread : readRecord kind nestingBudget bytes = .ok (record, rest) := by
        simp only [readRecord, hkey, hbody]
      rw [readUntil_of_ok (List.length_pos_iff.mpr (by simpa using hne)) hread]
      rw [hlater] at ih
      exact ih

/-- Decoding is merging into the empty message, up to the type of errors. -/
theorem decode_eq_mapError_read (kind : Kind) (bytes : List UInt8) :
    decode kind bytes = (read kind bytes).mapError WireError.ofDecodeError :=
  decodeInto_eq (Message.empty kind) bytes

/-! ### The wording of the error for a retired number -/

/-- A text has the characters of the text that it starts with. -/
theorem getElem?_append {text : String} {i : Nat} {c : Char} (later : String)
    (h : text.toList[i]? = some c) : (text ++ later).toList[i]? = some c := by
  obtain ⟨hlt, -⟩ := List.getElem?_eq_some_iff.mp h
  rw [String.toList_append, List.getElem?_append_left hlt, h]

/-- The first letter of the wording of a fault that is no retired number. It is not the
first letter of the name of a kind. -/
theorem exists_getElem?_message {fault : Fault} (h : fault.isReserved = false) :
    ∃ c, fault.message.toList[0]? = some c ∧ c ≠ 't' := by
  cases fault with
  | invalidVarint => exact ⟨'i', rfl, by decide⟩
  | invalidKey value => exact ⟨'i', getElem?_append _ rfl, by decide⟩
  | invalidWireType code => exact ⟨'i', getElem?_append _ rfl, by decide⟩
  | zeroNumber => exact ⟨'i', rfl, by decide⟩
  | wrongWireType found =>
      refine ⟨'i', getElem?_append _ (getElem?_append _ (getElem?_append _
        (getElem?_append _ rfl))), by decide⟩
  | underflow => exact ⟨'b', rfl, by decide⟩
  | notUtf8 => exact ⟨'i', rfl, by decide⟩
  | recursionLimit => exact ⟨'r', rfl, by decide⟩
  | unexpectedEndGroup => exact ⟨'u', rfl, by decide⟩
  | delimitedLengthExceeded => exact ⟨'d', rfl, by decide⟩
  | reserved _ _ => simp [Fault.isReserved] at h

/-- The wording of a retired number names the kind and the number. -/
theorem message_reserved_inj {kind₁ kind₂ : Kind} {number₁ number₂ : Nat}
    (h : (Fault.reserved kind₁ number₁).message = (Fault.reserved kind₂ number₂).message) :
    kind₁ = kind₂ ∧ number₁ = number₂ := by
  have hwords : kind₁.name ++ " uses reserved field number " ++ toString number₁ =
      kind₂.name ++ " uses reserved field number " ++ toString number₂ := h
  -- The names of the kinds differ in their 26th letter.
  have hletter (kind : Kind) (number : Nat) :
      (kind.name ++ " uses reserved field number " ++ toString number).toList[25]? =
        kind.name.toList[25]? := by
    cases kind <;> exact getElem?_append _ (getElem?_append _ (by decide))
  have hkind : kind₁ = kind₂ := by
    have hletters := hletter kind₁ number₁
    rw [hwords, hletter kind₂ number₂] at hletters
    revert hletters
    cases kind₁ <;> cases kind₂ <;> decide
  subst hkind
  have hdigits := (String.append_right_inj _).mp hwords
  have hvalue := congrArg (fun text => Nat.ofDigitChars 10 text.toList 0) hdigits
  exact ⟨rfl, by simpa using hvalue⟩

/-- A retired number is the only error with its wording. -/
theorem message_eq_reservedError_iff {e : DecodeError} {number : Nat}
    (hkind : e.kind = kind) :
    e.message = (reservedError kind number).message ↔ e = reservedError kind number := by
  constructor
  · intro h
    obtain ⟨own, field?, fault⟩ := e
    obtain rfl : own = kind := hkind
    cases field? with
    | none =>
        have hfault : fault.message = (Fault.reserved own number).message :=
          (String.append_right_inj _).mp h
        cases hreserved : fault.isReserved with
        | false =>
            obtain ⟨c, hc, hne⟩ := exists_getElem?_message hreserved
            have ht : (Fault.reserved own number).message.toList[0]? = some 't' :=
              getElem?_append _ (getElem?_append _ (by cases own <;> decide))
            rw [hfault, ht] at hc
            exact absurd (Option.some.inj hc).symm hne
        | true =>
            cases fault with
            | reserved other m =>
                obtain ⟨rfl, rfl⟩ := message_reserved_inj hfault
                rfl
            | _ => simp [Fault.isReserved] at hreserved
    | some field =>
        have hwords : "failed to decode Protobuf message: " ++
              (own.name ++ "." ++ field.name ++ ": ") ++ fault.message =
            "failed to decode Protobuf message: " ++ "" ++
              (own.name ++ " uses reserved field number " ++ toString number) := h
        rw [String.append_empty] at hwords
        simp only [String.append_assoc] at hwords
        have hrest := (String.append_right_inj _).mp ((String.append_right_inj _).mp hwords)
        -- Behind the name of the kind stands a dot on one side and a blank on the other.
        have hletter := congrArg (fun text => text.toList[0]?) hrest
        have hdot : ("." ++ (field.name ++ (": " ++ fault.message))).toList[0]? =
            some '.' := getElem?_append _ rfl
        have hblank : (" uses reserved field number " ++ toString number).toList[0]? =
            some ' ' := getElem?_append _ rfl
        have hsame : some '.' = some ' ' := hdot.symm.trans (hletter.trans hblank)
        exact absurd hsame (by decide)
  · rintro rfl
    rfl

/-! ### Both ways of reading, outcome by outcome -/

/-- Both loops accept the same bytes, and read the same message from them. -/
theorem decode_eq_ok_iff_read {bytes : List UInt8} {message : Message kind} :
    decode kind bytes = .ok message ↔ read kind bytes = .ok message := by
  rw [decode_eq_mapError_read, mapError_eq_ok_iff]

/-- A malformed record is the same error for both. -/
theorem decode_eq_decode_iff_read {bytes : List UInt8} {e : DecodeError} :
    decode kind bytes = .error (.decode e) ↔
      read kind bytes = .error e ∧ ∀ number, e ≠ reservedError kind number := by
  rw [decode_eq_mapError_read]
  cases hread : read kind bytes with
  | ok message => simp [Except.mapError]
  | error found =>
      simp only [Except.mapError, Except.error.injEq]
      obtain ⟨-, ⟨number, rfl⟩ | hfault⟩ := error_of_read hread
      · constructor
        · intro h
          simp [reservedError, WireError.ofDecodeError] at h
        · rintro ⟨rfl, hne⟩
          exact absurd rfl (hne number)
      · rw [ofDecodeError_of_not_isReserved hfault, WireError.decode.injEq]
        constructor
        · rintro rfl
          refine ⟨rfl, ?_⟩
          rintro number rfl
          simp [reservedError, Fault.isReserved] at hfault
        · exact And.left

/-- A retired number is an error of its own for decoding, and one fault among others for
merging. -/
theorem decode_eq_reservedField_iff_read {bytes : List UInt8} {own : Kind} {number : Nat} :
    decode kind bytes = .error (.reservedField own number) ↔
      own = kind ∧ read kind bytes = .error (reservedError kind number) := by
  rw [decode_eq_mapError_read]
  cases hread : read kind bytes with
  | ok message => simp [Except.mapError]
  | error found =>
      simp only [Except.mapError, Except.error.injEq]
      obtain ⟨-, ⟨other, rfl⟩ | hfault⟩ := error_of_read hread
      · constructor
        · intro h
          obtain ⟨rfl, rfl⟩ := WireError.reservedField.inj h
          exact ⟨rfl, rfl⟩
        · rintro ⟨rfl, h⟩
          rw [h]
          rfl
      · rw [ofDecodeError_of_not_isReserved hfault]
        constructor
        · intro h
          simp at h
        · rintro ⟨-, rfl⟩
          simp [reservedError, Fault.isReserved] at hfault

/-- **The two ways of reading a document agree.** They accept the same documents with the
same message. They refuse the others with the same error, unless it is that of a retired
number: then the one error has no field, and its wording is that of the other. -/
theorem decode_agrees_with_read (kind : Kind) (bytes : List UInt8) :
    (∀ message, decode kind bytes = .ok message ↔ read kind bytes = .ok message) ∧
    (∀ e, decode kind bytes = .error (.decode e) ↔
      read kind bytes = .error e ∧ ∀ number, e ≠ reservedError kind number) ∧
    (∀ own number, decode kind bytes = .error (.reservedField own number) ↔
      own = kind ∧ ∃ e, read kind bytes = .error e ∧ e.field? = none ∧
        e.message = "failed to decode Protobuf message: " ++
          (kind.name ++ " uses reserved field number " ++ toString number)) := by
  refine ⟨fun message => decode_eq_ok_iff_read, fun e => decode_eq_decode_iff_read,
    fun own number => ?_⟩
  rw [decode_eq_reservedField_iff_read]
  constructor
  · rintro ⟨rfl, hread⟩
    exact ⟨rfl, reservedError own number, hread, rfl, rfl⟩
  · rintro ⟨rfl, e, hread, -, hwords⟩
    obtain ⟨hkind, -⟩ := error_of_read hread
    obtain rfl := (message_eq_reservedError_iff hkind).mp hwords
    exact ⟨rfl, hread⟩

end Wire

end InferenceConfig
