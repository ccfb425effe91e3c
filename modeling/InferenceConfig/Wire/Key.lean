import InferenceConfig.Message
import InferenceConfig.Wire.Varint

/-!
# Record Keys

A binary message is a sequence of records, and each record starts with a key: a number
whose lowest three bits say how the record's body is laid out and whose other bits are the
number of a field. This module also holds `Wire.Fault`, the list of everything that can be
wrong with a record.

## Main definitions

* `WireType` — the layouts of a body;
* `Wire.Fault`, `Wire.DecodeError` — what is wrong, and in which field;
* `Key`, `Key.read` — the key at the start of the bytes.
-/

namespace InferenceConfig

/-- The layouts of a record's body. -/
inductive WireType where
  /-- A variable-length integer. -/
  | varint
  /-- Eight bytes. -/
  | sixtyFourBit
  /-- A length and as many bytes. -/
  | lengthDelimited
  /-- Records up to the end of the group. -/
  | startGroup
  /-- The end of a group. -/
  | endGroup
  /-- Four bytes. -/
  | thirtyTwoBit
  deriving DecidableEq, Repr, Inhabited

namespace WireType

/-- The layout that a code from 0 to 5 stands for. -/
def ofCode? : Nat → Option WireType
  | 0 => some .varint
  | 1 => some .sixtyFourBit
  | 2 => some .lengthDelimited
  | 3 => some .startGroup
  | 4 => some .endGroup
  | 5 => some .thirtyTwoBit
  | _ => none

/-- The code of a layout. -/
def code : WireType → Nat
  | .varint => 0
  | .sixtyFourBit => 1
  | .lengthDelimited => 2
  | .startGroup => 3
  | .endGroup => 4
  | .thirtyTwoBit => 5

/-- The name of a layout in messages. -/
def name : WireType → String
  | .varint => "Varint"
  | .sixtyFourBit => "SixtyFourBit"
  | .lengthDelimited => "LengthDelimited"
  | .startGroup => "StartGroup"
  | .endGroup => "EndGroup"
  | .thirtyTwoBit => "ThirtyTwoBit"

end WireType

namespace Wire

/-- What can be wrong with a record. -/
inductive Fault where
  /-- An integer does not end, within the input or within ten bytes. -/
  | invalidVarint
  /-- The value of a key has more than 32 bits. -/
  | invalidKey (value : Nat)
  /-- The key's layout code is 6 or 7. -/
  | invalidWireType (code : Nat)
  /-- The key's field number is zero. -/
  | zeroNumber
  /-- A string field comes with another layout than its own. -/
  | wrongWireType (found : WireType)
  /-- A body is longer than what is left of the input. -/
  | underflow
  /-- The body of a string field is not UTF-8. -/
  | notUtf8
  /-- Groups are nested too deeply. -/
  | recursionLimit
  /-- A group ends that is not the innermost open one. -/
  | unexpectedEndGroup
  /-- A record runs past the end of its delimited message. -/
  | delimitedLengthExceeded
  /-- The field number is retired. -/
  | reserved (kind : Kind) (number : Nat)
  deriving DecidableEq, Repr

/-- The wording of a fault. -/
def Fault.message : Fault → String
  | .invalidVarint => "invalid varint"
  | .invalidKey value => "invalid key value: " ++ toString value
  | .invalidWireType code => "invalid wire type value: " ++ toString code
  | .zeroNumber => "invalid tag value: 0"
  | .wrongWireType found =>
    "invalid wire type: " ++ found.name ++ " (expected " ++ WireType.lengthDelimited.name
      ++ ")"
  | .underflow => "buffer underflow"
  | .notUtf8 => "invalid string value: data is not UTF-8 encoded"
  | .recursionLimit => "recursion limit reached"
  | .unexpectedEndGroup => "unexpected end group tag"
  | .delimitedLengthExceeded => "delimited length exceeded"
  | .reserved kind number =>
    kind.name ++ " uses reserved field number " ++ toString number

/-- A fault, with the field of the kind whose body it was found in, if any. -/
structure DecodeError where
  /-- The kind of message that was read. -/
  kind : Kind
  /-- The field whose body is at fault. -/
  field? : Option Field := none
  /-- What is wrong. -/
  fault : Fault
  deriving DecidableEq, Repr

/-- The wording of a decoding error. -/
def DecodeError.message (e : DecodeError) : String :=
  let place := match e.field? with
    | some field => e.kind.name ++ "." ++ field.name ++ ": "
    | none => ""
  "failed to decode Protobuf message: " ++ place ++ e.fault.message

end Wire

/-- The start of a record: the number of a field and the layout of the body. -/
structure Key where
  /-- The number of the field. -/
  number : Nat
  /-- The layout of the body. -/
  wireType : WireType
  deriving DecidableEq, Repr, Inhabited

namespace Key

/-- The value that stands for the key. -/
def value (key : Key) : Nat :=
  key.number * 8 + key.wireType.code

/-- The key that a value stands for. A value of more than 32 bits is refused first, then an
unknown layout, then the field number zero. -/
def ofValue (value : Nat) : Except Wire.Fault Key :=
  if 0x100000000 ≤ value then .error (.invalidKey value)
  else
    match WireType.ofCode? (value % 8) with
    | none => .error (.invalidWireType (value % 8))
    | some wireType =>
      if value / 8 = 0 then .error .zeroNumber else .ok ⟨value / 8, wireType⟩

/-- The key at the start of the bytes and what follows it. -/
def read (bytes : List UInt8) : Except Wire.Fault (Key × List UInt8) :=
  match Varint.read? bytes with
  | none => .error .invalidVarint
  | some (value, rest) =>
    match ofValue value with
    | .error fault => .error fault
    | .ok key => .ok (key, rest)

/-- A key takes at least one byte. -/
theorem length_of_read {key : Key} {bytes rest : List UInt8}
    (h : read bytes = .ok (key, rest)) : rest.length < bytes.length := by
  simp only [read] at h
  split at h
  · simp at h
  · next heq =>
    split at h
    · simp at h
    · simp only [Except.ok.injEq, Prod.mk.injEq] at h
      exact h.2 ▸ Varint.length_of_read? heq

end Key

end InferenceConfig
