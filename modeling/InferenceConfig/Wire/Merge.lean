import InferenceConfig.Fault
import InferenceConfig.Unicode.Utf8
import InferenceConfig.Wire.Skip

/-!
# Merging Records into a Message

A record of an assigned field appends its string to the field's list, a record of an
unknown field is skipped, and a record with a retired number is an error. Records are
merged one after another; when one of them is at fault, the values before it stay.

A message is merged into in place, so whatever has been done to it before a fault is there to be
seen. Each function here gives the message as it leaves it, beside its outcome.

A message may also come behind its own length. It is read from the whole input until that
length is used up, so a record that runs past the end is only noticed once it is read.

## Main definitions

* `Wire.readString`, `Wire.mergeString` — a string, and a list that it is put into;
* `Wire.mergeField`, `Wire.mergeRecord` — merge one record, without its key and with it;
* `Wire.merge`, `Wire.mergeDelimited` — merge all records of an input;
* `Wire.read`, `Wire.readDelimited` — the same, from the empty message.
-/

namespace InferenceConfig

namespace Wire

/-- The number of records that may be nested in one another. -/
def nestingBudget : Nat := 100

/-- The string at the start of the bytes, behind its length, and what follows it. -/
def readString (wireType : WireType) (bytes : List UInt8) :
    Except Fault (String × List UInt8) :=
  if wireType ≠ .lengthDelimited then .error (.wrongWireType wireType)
  else
    match Varint.read? bytes with
    | none => .error .invalidVarint
    | some (length, rest) =>
      if rest.length < length then .error .underflow
      else
        match Utf8.decode (rest.take length) with
        | .error _ => .error .notUtf8
        | .ok text => .ok (String.ofList text, rest.drop length)

/-- Reading a string leaves no more bytes. -/
theorem length_of_readString {wireType : WireType} {bytes rest : List UInt8}
    {value : String} (h : readString wireType bytes = .ok (value, rest)) :
    rest.length ≤ bytes.length := by
  simp only [readString] at h
  split at h
  · simp at h
  · split at h
    · simp at h
    · next heq =>
      split at h
      · simp at h
      · split at h
        · simp at h
        · simp only [Except.ok.injEq, Prod.mk.injEq] at h
          have := Varint.length_of_read? heq
          simp only [← h.2, List.length_drop]
          omega

/-- Reads the string at the start of the bytes and puts it at the end of the list, once it has
been read as a whole. Gives what follows it, and beside that the list as it is then. -/
def mergeString (wireType : WireType) (list : List String) (bytes : List UInt8) :
    Except Fault (List UInt8) × List String :=
  match readString wireType bytes with
  | .error fault => (.error fault, list)
  | .ok (value, rest) => (.ok rest, list ++ [value])

section

variable {kind : Kind}

/-- Merges the record whose key has been read: a string for an assigned field, anything for an
unknown one, and nothing at all for a retired number. Gives what follows it, and beside that the
message as it is then, whether or not the record is at fault. -/
def mergeField (budget : Nat) (message : Message kind) (key : Key) (bytes : List UInt8) :
    Except DecodeError (List UInt8) × Message kind :=
  if kind.isReserved key.number then
    (.error { kind, fault := .reserved kind key.number }, message)
  else
    match kind.fieldWithNumber? key.number, message.values? key.number with
    | some field, some list =>
      -- The list is put back in either case, as it is then.
      let merged := mergeString key.wireType list bytes
      (merged.1.mapError fun fault => { kind, field? := some field, fault },
        message.withValues key.number merged.2)
    | _, _ => ((skip budget key bytes).mapError fun fault => { kind, fault }, message)

/-- Merges the record at the start of the bytes. Gives what follows it, and beside that the
message as it is then. -/
def mergeRecord (budget : Nat) (message : Message kind) (bytes : List UInt8) :
    Except DecodeError (List UInt8) × Message kind :=
  match Key.read bytes with
  | .error fault => (.error { kind, fault }, message)
  | .ok (key, rest) => mergeField budget message key rest

/-- What follows a string is no longer than the bytes that it was read from. -/
theorem length_of_mergeString {wireType : WireType} {list : List String}
    {bytes rest : List UInt8} (h : (mergeString wireType list bytes).1 = .ok rest) :
    rest.length ≤ bytes.length := by
  rw [mergeString] at h
  split at h
  · simp at h
  · next hread =>
    simp only [Except.ok.injEq] at h
    exact h ▸ length_of_readString hread

/-- What follows a record is no longer than what follows its key. -/
theorem length_of_mergeField {budget : Nat} {message : Message kind} {key : Key}
    {bytes rest : List UInt8} (h : (mergeField budget message key bytes).1 = .ok rest) :
    rest.length ≤ bytes.length := by
  rw [mergeField] at h
  split at h
  · simp at h
  · split at h
    · exact length_of_mergeString (mapError_eq_ok_iff.mp h)
    · exact length_of_skip (mapError_eq_ok_iff.mp h)

/-- A record takes at least one byte. -/
theorem length_of_mergeRecord {budget : Nat} {message : Message kind}
    {bytes rest : List UInt8} (h : (mergeRecord budget message bytes).1 = .ok rest) :
    rest.length < bytes.length := by
  rw [mergeRecord] at h
  split at h
  · simp at h
  · next hkey => exact Nat.lt_of_le_of_lt (length_of_mergeField h) (Key.length_of_read hkey)

end

/-- A message after merging, and the fault that ended the merging, if any. -/
structure Merged (kind : Kind) where
  /-- The message as the merging leaves it. -/
  message : Message kind
  /-- The fault of the first record that could not be read. -/
  error? : Option DecodeError

section

variable {kind : Kind}

/-- Merges records until at most `limit` bytes are left; fewer than that are a fault. -/
def mergeUntil (limit budget : Nat) (message : Message kind) (bytes : List UInt8) :
    Merged kind :=
  if bytes.length ≤ limit then
    if bytes.length = limit then { message, error? := none }
    else { message, error? := some { kind, fault := .delimitedLengthExceeded } }
  else
    match _h : mergeRecord budget message bytes with
    | (.error e, merged) => { message := merged, error? := some e }
    | (.ok rest, merged) => mergeUntil limit budget merged rest
termination_by bytes.length
decreasing_by exact length_of_mergeRecord (congrArg Prod.fst _h)

/-- Merges all records of the input. -/
def merge (message : Message kind) (bytes : List UInt8) : Merged kind :=
  mergeUntil 0 nestingBudget message bytes

/-- Merges the records of a message that comes behind its length. What follows it is left
alone; one level of nesting is used up. -/
def mergeDelimited (message : Message kind) (bytes : List UInt8) : Merged kind :=
  match Varint.read? bytes with
  | none => { message, error? := some { kind, fault := .invalidVarint } }
  | some (length, rest) =>
    if rest.length < length then
      { message, error? := some { kind, fault := .underflow } }
    else mergeUntil (rest.length - length) (nestingBudget - 1) message rest

/-- The merged message, or the fault. -/
def Merged.toExcept (merged : Merged kind) : Except DecodeError (Message kind) :=
  match merged.error? with
  | none => .ok merged.message
  | some e => .error e

end

/-- The message that the input holds. -/
def read (kind : Kind) (bytes : List UInt8) : Except DecodeError (Message kind) :=
  (merge (Message.empty kind) bytes).toExcept

/-- The message that the input holds behind its length. -/
def readDelimited (kind : Kind) (bytes : List UInt8) : Except DecodeError (Message kind) :=
  (mergeDelimited (Message.empty kind) bytes).toExcept

end Wire

end InferenceConfig
