import InferenceConfig.Unicode.Utf8
import InferenceConfig.Wire.Key

/-!
# Encoding a Binary Document

Every value is a record of its own: the key of its field, the length of its UTF-8 bytes,
and the bytes. Records come in the order of `Message.entries`, by ascending field number.
The size is computed without encoding, so that a buffer of fixed capacity is only written
to when everything fits.

## Main definitions

* `Wire.encode`, `Wire.encodeDelimited` — the bytes of a message, plain and behind their
  number;
* `Wire.encodedSize` — the number of bytes, computed from the lengths of the values;
* `Wire.encodeWithin` — encodes into a buffer of a given capacity.
-/

namespace InferenceConfig

namespace Wire

/-- The record of one value. -/
def encodeEntry (field : Field) (value : String) : List UInt8 :=
  let body := Utf8.encode value.toList
  Varint.encode (Key.value ⟨field.number, .lengthDelimited⟩)
    ++ (Varint.encode body.length ++ body)

section

variable {kind : Kind}

/-- The bytes of a message. -/
def encode (message : Message kind) : List UInt8 :=
  message.entries.flatMap fun (field, value) => encodeEntry field value

/-- The number of bytes that the lengths and bytes of the values take. -/
def bodiesSize : (values : List String) → Nat
  | [] => 0
  | value :: values =>
    Varint.size value.utf8ByteSize + value.utf8ByteSize + bodiesSize values

/-- The number of bytes that the values of one field take. -/
def fieldSize (field : Field) (values : List String) : Nat :=
  Varint.size (Key.value ⟨field.number, .lengthDelimited⟩) * values.length
    + bodiesSize values

/-- The number of bytes of a message. -/
def encodedSize (message : Message kind) : Nat :=
  kind.fields.foldr
    (fun field size => fieldSize field (message.values field.number) + size) 0

/-- The bytes of a message behind their number. -/
def encodeDelimited (message : Message kind) : List UInt8 :=
  Varint.encode (encodedSize message) ++ encode message

end

/-- A buffer is too small for a message. -/
structure EncodeError where
  /-- The number of bytes that the message takes. -/
  required : Nat
  /-- The number of bytes that are free. -/
  remaining : Nat
  deriving DecidableEq, Repr

/-- The wording of an encoding error. -/
def EncodeError.message (e : EncodeError) : String :=
  "failed to encode Protobuf message; insufficient buffer capacity (required: "
    ++ toString e.required ++ ", remaining: " ++ toString e.remaining ++ ")"

/-- Encodes a message into a buffer with `capacity` free bytes, behind its length when it is
`delimited`, and gives the bytes written and the number of bytes left. Nothing is written
unless all of it fits. -/
def encodeWithin {kind : Kind} (capacity : Nat) (delimited : Bool)
    (message : Message kind) : Except EncodeError (List UInt8 × Nat) :=
  let size := encodedSize message
  let required := if delimited then size + Varint.size size else size
  if capacity < required then .error ⟨required, capacity⟩
  else
    let bytes := if delimited then encodeDelimited message else encode message
    .ok (bytes, capacity - bytes.length)

end Wire

end InferenceConfig
