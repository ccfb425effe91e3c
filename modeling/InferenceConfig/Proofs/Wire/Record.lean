import InferenceConfig.Proofs.Message
import InferenceConfig.Wire.Merge

/-!
# A Record Merged in Place

To merge a record, the list of its field is taken out of the message, a string is read and put at
the end of the list, and the list is put back. The record can be at fault at each of these steps,
and the message is changed in place. Still a record leaves no trace if it is at fault: the string
is put into the list only after all of it has been read, so the list that is put back is the one
that was taken out (`mergeField_eq_error_iff`).

So what a record comes to does not depend on the message. It can be read first, without any
message, and be added afterwards (`mergeField_eq_addOutcome`). This is how the other modules see a
record.

## Main definitions

* `Wire.NotString`, `Wire.Refused` — the ways in which a string, and what follows a key, can be
  at fault;
* `Wire.Record`, `Wire.Record.addTo` — what a record comes to, and what it does to a message;
* `Wire.readBody`, `Wire.addOutcome` — reads what follows a key, and adds it to a message.

## Main results

* `Wire.readString_eq_error_iff`, `Wire.mergeString_eq_error_iff` — a string at fault is not put
  into a list;
* `Wire.mergeField_eq_error_iff` — the message after a record that is at fault;
* `Wire.mergeField_eq_addOutcome` — merging in place is reading and adding;
* `Wire.mergeField_eq_ok_iff` — the message after a record that is merged.
-/

namespace InferenceConfig

namespace Wire

variable {kind : Kind} {budget : Nat} {message merged : Message kind} {key : Key}
  {bytes rest : List UInt8} {e : DecodeError}

/-! ### Records at fault -/

/-- There is no string at the start of the bytes, because of the fault. -/
inductive NotString (wireType : WireType) (bytes : List UInt8) : Fault → Prop
  | wrongWireType :
      wireType ≠ .lengthDelimited → NotString wireType bytes (.wrongWireType wireType)
  | noLength :
      wireType = .lengthDelimited → Varint.read? bytes = none →
      NotString wireType bytes .invalidVarint
  | cutOff {length : Nat} {rest : List UInt8} :
      wireType = .lengthDelimited → Varint.read? bytes = some (length, rest) →
      rest.length < length → NotString wireType bytes .underflow
  | notUtf8 {length : Nat} {rest : List UInt8} :
      wireType = .lengthDelimited → Varint.read? bytes = some (length, rest) →
      length ≤ rest.length → (∀ text, Utf8.decode (rest.take length) ≠ .ok text) →
      NotString wireType bytes .notUtf8

/-- What follows the key is at fault with an error: the number is retired, or there is no string
for an assigned field, or what is there for any other field cannot be skipped. -/
inductive Refused (kind : Kind) (budget : Nat) (key : Key) (bytes : List UInt8) :
    DecodeError → Prop
  | retired :
      key.number ∈ kind.reserved →
      Refused kind budget key bytes { kind, fault := .reserved kind key.number }
  | notString {field : Field} {fault : Fault} :
      field ∈ kind.fields → field.number = key.number → NotString key.wireType bytes fault →
      Refused kind budget key bytes { kind, field? := some field, fault }
  | notSkipped {fault : Fault} :
      (∀ field ∈ kind.fields, field.number ≠ key.number) → key.number ∉ kind.reserved →
      skip budget key bytes = .error fault →
      Refused kind budget key bytes { kind, fault }

/-- Reading a string fails in exactly these ways. -/
theorem readString_eq_error_iff {wireType : WireType} {fault : Fault} :
    readString wireType bytes = .error fault ↔ NotString wireType bytes fault := by
  rw [readString]
  constructor
  · intro h
    split at h
    · next hwireType =>
        obtain rfl := Except.error.inj h
        exact .wrongWireType hwireType
    · next hwireType =>
        have hlayout : wireType = .lengthDelimited := Decidable.of_not_not hwireType
        split at h
        · next hread =>
            obtain rfl := Except.error.inj h
            exact .noLength hlayout hread
        · next length rest hread =>
            split at h
            · next hshort =>
                obtain rfl := Except.error.inj h
                exact .cutOff hlayout hread hshort
            · next hlong =>
                split at h
                · next position htext =>
                    obtain rfl := Except.error.inj h
                    exact .notUtf8 hlayout hread (Nat.le_of_not_lt hlong) (by simp [htext])
                · simp at h
  · intro h
    cases h with
    | wrongWireType hwireType => rw [if_pos hwireType]
    | noLength hlayout hread => simp only [hlayout, hread, ne_eq, not_true_eq_false, if_false]
    | cutOff hlayout hread hshort =>
        simp only [hlayout, hread, ne_eq, not_true_eq_false, if_false, if_pos hshort]
    | notUtf8 hlayout hread hlong htext =>
        simp only [hlayout, hread, ne_eq, not_true_eq_false, if_false,
          if_neg (Nat.not_lt_of_le hlong)]
        split
        · rfl
        · next text hok => exact absurd hok (htext text)

/-- The list is as it was if no string could be read for it. The string is read before the list
is touched. -/
theorem mergeString_eq_error_iff {wireType : WireType} {list later : List String}
    {fault : Fault} :
    mergeString wireType list bytes = (.error fault, later) ↔
      NotString wireType bytes fault ∧ later = list := by
  rw [mergeString, ← readString_eq_error_iff]
  cases readString wireType bytes with
  | error found => simp [eq_comm]
  | ok found => simp

/-- The list has one more value if a string could be read for it. -/
theorem mergeString_eq_ok_iff {wireType : WireType} {list later : List String} :
    mergeString wireType list bytes = (.ok rest, later) ↔
      ∃ value, readString wireType bytes = .ok (value, rest) ∧ later = list ++ [value] := by
  rw [mergeString]
  cases readString wireType bytes with
  | error found => simp
  | ok found =>
      obtain ⟨value, tail⟩ := found
      simp only [Prod.mk.injEq, Except.ok.injEq]
      constructor
      · rintro ⟨rfl, rfl⟩
        exact ⟨value, ⟨rfl, rfl⟩, rfl⟩
      · rintro ⟨_, ⟨rfl, rfl⟩, rfl⟩
        exact ⟨rfl, rfl⟩

/-! ### Retired, assigned and unknown numbers -/

/-- A retired number is refused before any byte is read. -/
theorem mergeField_of_retired (h : key.number ∈ kind.reserved) :
    mergeField budget message key bytes =
      (.error { kind, fault := .reserved kind key.number }, message) := by
  rw [mergeField, if_pos (Kind.isReserved_iff.mpr h)]

/-- The table knows a field if and only if the message stores a list for its number, so the record
of a field is not skipped. -/
theorem mergeField_of_field {field : Field} (hfield : field ∈ kind.fields)
    (hnumber : field.number = key.number) :
    mergeField budget message key bytes =
      ((mergeString key.wireType (message.values key.number) bytes).1.mapError
          fun fault => { kind, field? := some field, fault },
        message.withValues key.number
          (mergeString key.wireType (message.values key.number) bytes).2) := by
  have hreserved : ¬ kind.isReserved key.number = true := by
    rw [Kind.isReserved_iff, ← hnumber]
    exact Kind.number_notMem_reserved hfield
  have hstored : message.values? key.number = some (message.values key.number) := by
    rw [← hnumber]
    exact message.values?_of_mem hfield
  rw [mergeField, if_neg hreserved, Kind.fieldWithNumber?_eq_some_iff.mpr ⟨hfield, hnumber⟩,
    hstored]

/-- What follows the key of an unknown field is skipped, and the message is not touched. -/
theorem mergeField_of_unknown (hunknown : ∀ field ∈ kind.fields, field.number ≠ key.number)
    (hreserved : key.number ∉ kind.reserved) :
    mergeField budget message key bytes =
      ((skip budget key bytes).mapError fun fault => { kind, fault }, message) := by
  rw [mergeField, if_neg (by rwa [Kind.isReserved_iff]),
    Kind.fieldWithNumber?_eq_none_iff.mpr hunknown]

/-! ### The message behind a fault -/

/-- **A record at fault leaves no trace.** -/
theorem mergeField_eq_error_iff :
    mergeField budget message key bytes = (.error e, merged) ↔
      Refused kind budget key bytes e ∧ merged = message := by
  constructor
  · intro h
    rcases kind.number_cases key.number with hretired | ⟨field, hfield, hnumber⟩ |
      ⟨hunknown, hreserved⟩
    · rw [mergeField_of_retired hretired] at h
      obtain ⟨he, rfl⟩ := Prod.mk.inj h
      obtain rfl := Except.error.inj he
      exact ⟨.retired hretired, rfl⟩
    · rw [mergeField_of_field hfield hnumber] at h
      obtain ⟨he, rfl⟩ := Prod.mk.inj h
      obtain ⟨fault, hfault, rfl⟩ := mapError_eq_error_iff.mp he
      have hmerge : mergeString key.wireType (message.values key.number) bytes =
          (.error fault, (mergeString key.wireType (message.values key.number) bytes).2) :=
        Prod.ext hfault rfl
      obtain ⟨hstring, hlist⟩ := mergeString_eq_error_iff.mp hmerge
      refine ⟨.notString hfield hnumber hstring, ?_⟩
      -- The list that is put back is the one that was taken out.
      rw [hlist]
      exact Message.withValues_of_values? (hnumber ▸ message.values?_of_mem hfield)
    · rw [mergeField_of_unknown hunknown hreserved] at h
      obtain ⟨he, rfl⟩ := Prod.mk.inj h
      obtain ⟨fault, hskip, rfl⟩ := mapError_eq_error_iff.mp he
      exact ⟨.notSkipped hunknown hreserved hskip, rfl⟩
  · rintro ⟨h, rfl⟩
    cases h with
    | retired hretired => exact mergeField_of_retired hretired
    | @notString field fault hfield hnumber hstring =>
        have hmerge : mergeString key.wireType (merged.values key.number) bytes =
            (.error fault, merged.values key.number) :=
          mergeString_eq_error_iff.mpr ⟨hstring, rfl⟩
        rw [mergeField_of_field hfield hnumber, hmerge]
        exact congrArg (Prod.mk _)
          (Message.withValues_of_values? (hnumber ▸ merged.values?_of_mem hfield))
    | notSkipped hunknown hreserved hskip =>
        rw [mergeField_of_unknown hunknown hreserved, hskip]
        rfl

/-! ### Reading first, adding afterwards -/

/-- What a record comes to. -/
inductive Record where
  /-- A value for the list of a field. -/
  | stored (field : Field) (value : String)
  /-- Nothing: the field is unknown. -/
  | skipped (key : Key)
  deriving DecidableEq, Repr

/-- The message with what the record adds to it. -/
def Record.addTo (message : Message kind) : Record → Message kind
  | .stored field value => (message.push? field.number value).getD message
  | .skipped _ => message

/-- Reads what follows `key`: a string for an assigned field, anything for an unknown one,
and nothing at all for a retired number. -/
def readBody (kind : Kind) (budget : Nat) (key : Key) (bytes : List UInt8) :
    Except DecodeError (Record × List UInt8) :=
  if kind.isReserved key.number then
    .error { kind, fault := .reserved kind key.number }
  else
    match kind.fieldWithNumber? key.number with
    | some field =>
      match readString key.wireType bytes with
      | .error fault => .error { kind, field? := some field, fault }
      | .ok (value, rest) => .ok (.stored field value, rest)
    | none =>
      match skip budget key bytes with
      | .error fault => .error { kind, fault }
      | .ok rest => .ok (.skipped key, rest)

/-- The outcome of reading a record, and beside it the message with what the record adds to it, if
it could be read. -/
def addOutcome (message : Message kind) :
    Except DecodeError (Record × List UInt8) → Except DecodeError (List UInt8) × Message kind
  | .error e => (.error e, message)
  | .ok (record, rest) => (.ok rest, record.addTo message)

/-- A record that cannot be read adds nothing. -/
theorem addOutcome_eq_error_iff {outcome : Except DecodeError (Record × List UInt8)} :
    addOutcome message outcome = (.error e, merged) ↔ outcome = .error e ∧ merged = message := by
  cases outcome with
  | error found => simp [addOutcome, eq_comm]
  | ok found => simp [addOutcome]

/-- A record that can be read adds what it comes to. -/
theorem addOutcome_eq_ok_iff {outcome : Except DecodeError (Record × List UInt8)} :
    addOutcome message outcome = (.ok rest, merged) ↔
      ∃ record, outcome = .ok (record, rest) ∧ record.addTo message = merged := by
  cases outcome with
  | error found => simp [addOutcome]
  | ok found =>
      obtain ⟨record, tail⟩ := found
      simp only [addOutcome, Prod.mk.injEq, Except.ok.injEq]
      constructor
      · rintro ⟨rfl, rfl⟩
        exact ⟨record, ⟨rfl, rfl⟩, rfl⟩
      · rintro ⟨_, ⟨rfl, rfl⟩, rfl⟩
        exact ⟨rfl, rfl⟩

/-- **Merging in place is reading first and adding afterwards.** The message is not asked for a list
to read into; the table alone decides whether there is one. -/
theorem mergeField_eq_addOutcome (budget : Nat) (message : Message kind) (key : Key)
    (bytes : List UInt8) :
    mergeField budget message key bytes =
      addOutcome message (readBody kind budget key bytes) := by
  rw [readBody]
  rcases kind.number_cases key.number with hretired | ⟨field, hfield, hnumber⟩ |
    ⟨hunknown, hreserved⟩
  · rw [mergeField_of_retired hretired, if_pos (Kind.isReserved_iff.mpr hretired), addOutcome]
  · have hreserved : key.number ∉ kind.reserved := hnumber ▸ Kind.number_notMem_reserved hfield
    rw [mergeField_of_field hfield hnumber, if_neg (by rwa [Kind.isReserved_iff]),
      Kind.fieldWithNumber?_eq_some_iff.mpr ⟨hfield, hnumber⟩, mergeString]
    cases hread : readString key.wireType bytes with
    | error fault =>
        have hstored := hnumber ▸ message.values?_of_mem hfield
        simp only [Except.mapError, addOutcome, Message.withValues_of_values? hstored]
    | ok found =>
        have hpush := message.push?_of_mem found.1 hfield
        rw [hnumber] at hpush
        simp only [Except.mapError, addOutcome, Record.addTo, hnumber, hpush, Option.getD_some]
  · rw [mergeField_of_unknown hunknown hreserved, if_neg (by rwa [Kind.isReserved_iff]),
      Kind.fieldWithNumber?_eq_none_iff.mpr hunknown]
    cases skip budget key bytes with
    | error fault => rfl
    | ok rest => rfl

/-- What follows a key is refused exactly if it cannot be read. -/
theorem readBody_eq_error_iff :
    readBody kind budget key bytes = .error e ↔ Refused kind budget key bytes e := by
  have hfield :=
    @mergeField_eq_error_iff kind budget (Message.empty kind) (Message.empty kind) key bytes e
  rw [mergeField_eq_addOutcome, addOutcome_eq_error_iff] at hfield
  simpa only [and_true] using hfield

/-- What follows a key is merged exactly if it can be read, and adds what it comes to. -/
theorem mergeField_eq_ok_iff :
    mergeField budget message key bytes = (.ok rest, merged) ↔
      ∃ record, readBody kind budget key bytes = .ok (record, rest) ∧
        record.addTo message = merged := by
  rw [mergeField_eq_addOutcome, addOutcome_eq_ok_iff]

end Wire

end InferenceConfig
