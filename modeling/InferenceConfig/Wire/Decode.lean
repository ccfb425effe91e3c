import InferenceConfig.Wire.Merge

/-!
# Decoding a Binary Document

A whole document is read record by record. A retired number has an error of its own here,
raised as soon as the key is read, and every record of an unknown field is reported before
it is skipped.

## Main definitions

* `WireError` — a malformed record, or a retired number;
* `Wire.decodeTraced` — the keys of the unknown records that were met, and the outcome;
* `Wire.decode` — the outcome alone.
-/

namespace InferenceConfig

/-- Why a binary document is not a message. -/
inductive WireError where
  /-- A record is malformed. -/
  | decode (source : Wire.DecodeError)
  /-- A record has a retired number. -/
  | reservedField (kind : Kind) (number : Nat)
  deriving DecidableEq, Repr

namespace WireError

/-- Whether the error is about a retired number. -/
def isReservedField : WireError → Bool
  | .decode _ => false
  | .reservedField _ _ => true

/-- The wording of the error. A malformed record names its cause as well. -/
def message : WireError → String
  | .decode source =>
    "failed to decode " ++ source.kind.name ++ ": " ++ source.message
  | .reservedField kind number =>
    kind.name ++ " uses reserved field number " ++ toString number

end WireError

namespace Wire

/-- Decodes the records of the input into `message`. The first component lists the keys of
the records of unknown fields, each as soon as it is read and even if its record turns out
to be malformed. -/
def decodeInto {kind : Kind} (message : Message kind) (bytes : List UInt8) :
    List Key × Except WireError (Message kind) :=
  if bytes.isEmpty then ([], .ok message)
  else
    match _hkey : Key.read bytes with
    | .error fault => ([], .error (.decode { kind, fault }))
    | .ok (key, body) =>
      if kind.isReserved key.number then
        ([], .error (.reservedField kind key.number))
      else
        let unknown := if (kind.fieldWithNumber? key.number).isNone then [key] else []
        match _hfield : mergeField nestingBudget message key body with
        | (.error e, _) => (unknown, .error (.decode e))
        | (.ok rest, merged) =>
          let (later, outcome) := decodeInto merged rest
          (unknown ++ later, outcome)
termination_by bytes.length
decreasing_by
  exact Nat.lt_of_le_of_lt (length_of_mergeField (congrArg Prod.fst _hfield))
    (Key.length_of_read _hkey)

/-- The keys of the unknown records of a document, and the message that it holds. -/
def decodeTraced (kind : Kind) (bytes : List UInt8) :
    List Key × Except WireError (Message kind) :=
  decodeInto (Message.empty kind) bytes

/-- The message that a document holds. -/
def decode (kind : Kind) (bytes : List UInt8) : Except WireError (Message kind) :=
  (decodeTraced kind bytes).2

end Wire

end InferenceConfig
