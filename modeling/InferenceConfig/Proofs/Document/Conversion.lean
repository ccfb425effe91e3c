import InferenceConfig.Document.Report
import InferenceConfig.Proofs.Document.Decoding
import InferenceConfig.Proofs.Json.RoundTrip
import InferenceConfig.Proofs.Text.RoundTrip
import InferenceConfig.Proofs.Wire.Merging

/-!
# Conversions of Documents

A conversion decodes a document and encodes its message. In every format a message is read back
from its own document, so a conversion keeps the message, and a conversion that follows another
one does what it would do on the first document. The only limit is that of the binary form:
lengths have at most 64 bits. A value is no longer than the document that it comes from, so the
limit is never met when the first document has less than `2 ^ 64` bytes, as all documents have
that a memory can hold, however long the documents between become.

## Main definitions

* `Document.transcodeThrough` — a chain of conversions.

## Main results

* `Document.decode_encode` — a message is read back from its document in every format;
* `Document.decode_of_transcode`, `Document.transcode_congr` — what follows a conversion;
* `Document.transcodeThrough_eq` — a chain of conversions is one conversion.
-/

namespace InferenceConfig

namespace Document

variable {kind : Kind} {source target : Format} {bytes converted : List UInt8}

/-- A message whose lengths have at most 64 bits is read back from its document, whatever the
format. -/
theorem decode_encode {message : Message kind} (h : Wire.LengthsFit message)
    (format : Format) : decode kind format (encode format message) = .ok message := by
  cases format with
  | json => exact decode_json_eq_ok_iff.mpr (Json.read_encode_write message)
  | text =>
      refine decode_text_eq_ok_iff.mpr ⟨Text.render message, rfl, ?_⟩
      have hfields : ∀ entry ∈ message.entries, entry.1 ∈ kind.fields :=
        fun entry hentry => Message.mem_fields_of_mem_entries hentry
      rw [Text.render, Text.parse_flatMap_renderEntry hfields, Message.foldl_addEntry_entries]
  | binary => exact decode_binary_eq_ok_iff.mpr (Wire.decode_encode h)

/-- All values of a document of less than `2 ^ 64` bytes have lengths of at most 64 bits. -/
theorem lengthsFit_of_decode {message : Message kind}
    (hsize : bytes.length < 0x10000000000000000)
    (h : decode kind source bytes = .ok message) : Wire.LengthsFit message :=
  fun entry hentry => Nat.lt_of_le_of_lt ((fitsIn_of_decode h).entries entry hentry) hsize

/-! ### One conversion -/

/-- A document is converted exactly if it is decoded, and what is written is its message. -/
theorem transcode_eq_ok_iff :
    transcode kind source target bytes = .ok converted ↔
      ∃ message : Message kind,
        decode kind source bytes = .ok message ∧ encode target message = converted := by
  rw [transcode]
  cases decode kind source bytes <;> simp

/-- A document can be converted exactly if it can be decoded. -/
theorem exists_transcode_iff :
    (∃ converted, transcode kind source target bytes = .ok converted) ↔
      ∃ message, decode kind source bytes = .ok message := by
  constructor
  · rintro ⟨converted, h⟩
    obtain ⟨message, hmessage, -⟩ := transcode_eq_ok_iff.mp h
    exact ⟨message, hmessage⟩
  · rintro ⟨message, hmessage⟩
    exact ⟨_, transcode_eq_ok_iff.mpr ⟨message, hmessage, rfl⟩⟩

/-- A conversion keeps the message. -/
theorem decode_of_transcode (hsize : bytes.length < 0x10000000000000000)
    (h : transcode kind source target bytes = .ok converted) :
    decode kind target converted = decode kind source bytes := by
  obtain ⟨message, hmessage, rfl⟩ := transcode_eq_ok_iff.mp h
  rw [hmessage, decode_encode (lengthsFit_of_decode hsize hmessage)]

/-- Documents with the same message are converted to the same document. -/
theorem transcode_congr {other : List UInt8}
    (h : decode kind target other = decode kind source bytes) (later : Format) :
    transcode kind target later other = transcode kind source later bytes := by
  rw [transcode, transcode, h]

/-! ### Chains of conversions -/

/-- A document after conversions to the formats, one after another. -/
def transcodeThrough (kind : Kind) :
    (source : Format) → (targets : List Format) → (bytes : List UInt8) →
      Except Error (List UInt8)
  | _, [], bytes => .ok bytes
  | source, target :: targets, bytes =>
    match transcode kind source target bytes with
    | .error e => .error e
    | .ok converted => transcodeThrough kind target targets converted

/-- A chain of conversions does what the last one would do alone. Induction on the formats: the
first conversion keeps the message, and the message decides the rest. -/
theorem transcodeThrough_eq (targets : List Format) (target : Format)
    (hsize : ∀ message : Message kind, decode kind source bytes = .ok message →
      Wire.LengthsFit message) :
    transcodeThrough kind source (targets ++ [target]) bytes =
      transcode kind source target bytes := by
  induction targets generalizing source bytes with
  | nil =>
      rw [List.nil_append, transcodeThrough]
      cases transcode kind source target bytes <;> rfl
  | cons first targets ih =>
      rw [List.cons_append, transcodeThrough, transcode, transcode]
      cases hmessage : decode kind source bytes with
      | error e => rfl
      | ok message =>
          have hkept := decode_encode (hsize message hmessage) first
          have hfits : ∀ other : Message kind,
              decode kind first (encode first message) = .ok other → Wire.LengthsFit other := by
            intro other hother
            rw [hkept, Except.ok.injEq] at hother
            exact hother ▸ hsize message hmessage
          dsimp only
          rw [ih hfits, transcode, hkept]

end Document

end InferenceConfig
