import InferenceConfig.Json.Reader
import InferenceConfig.Json.Writer
import InferenceConfig.Log.Event
import InferenceConfig.Text.Form
import InferenceConfig.Wire.Decode
import InferenceConfig.Wire.Encode

/-!
# Documents

A document is a message in some format, as bytes. Decoding names the origin of the bytes in
its errors, and adds what it was doing to the cause.

## Main definitions

* `Document.Error` — why bytes are not a document of a format;
* `Document.decodeTraced`, `Document.decode` — the message of a document;
* `Document.encode` — the document of a message;
* `Document.transcode` — the same message in another format.
-/

namespace InferenceConfig

namespace Document

/-- Why bytes are not a document. -/
inductive Error where
  /-- The JSON document of a kind cannot be read. -/
  | json (kind : Kind) (source : Json.Error)
  /-- A document in text form is not UTF-8. -/
  | notUtf8 (source : Utf8.Fault)
  /-- A document in text form cannot be read. -/
  | text (source : Text.Error)
  /-- A binary document cannot be read. -/
  | wire (source : WireError)
  deriving DecidableEq, Repr

/-- The messages of an error in a document from `origin`, from the outermost to the innermost
cause. A malformed record names its cause in its own message too. -/
def Error.messages (origin : String) : Error → List String
  | .json kind source =>
    ["parse " ++ kind.name ++ " JSON from " ++ origin, source.message]
  | .notUtf8 source => [origin ++ " is not valid UTF-8 text", source.message]
  | .text source => source.messages origin
  | .wire (.decode source) =>
    ["decode binary " ++ origin, (WireError.decode source).message, source.message]
  | .wire source => ["decode binary " ++ origin, source.message]

/-- The log events of decoding a document from `origin`, and the message that it holds. -/
def decodeTraced (kind : Kind) (format : Format) (origin : String) (bytes : List UInt8) :
    List Event × Except Error (Message kind) :=
  match format with
  | .json =>
    match Json.read kind bytes with
    | .error source => ([], .error (.json kind source))
    | .ok message => ([], .ok message)
  | .text =>
    match Utf8.decode bytes with
    | .error source => ([], .error (.notUtf8 source))
    | .ok text =>
      match Text.parse kind text with
      | .error source => ([], .error (.text source))
      | .ok message => ([.parsed kind origin], .ok message)
  | .binary =>
    let (skipped, outcome) := Wire.decodeTraced kind bytes
    let events := skipped.map fun key => Event.skipping kind key
    match outcome with
    | .error source => (events, .error (.wire source))
    | .ok message => (events, .ok message)

/-- The message of a document. -/
def decode (kind : Kind) (format : Format) (bytes : List UInt8) :
    Except Error (Message kind) :=
  (decodeTraced kind format "" bytes).2

/-- The document of a message. -/
def encode {kind : Kind} (format : Format) (message : Message kind) : List UInt8 :=
  match format with
  | .json => Utf8.encode (Json.write message)
  | .text => Utf8.encode (Text.render message)
  | .binary => Wire.encode message

/-- The document in format `target` of the message in a document in format `source`. -/
def transcode (kind : Kind) (source target : Format) (bytes : List UInt8) :
    Except Error (List UInt8) :=
  match decode kind source bytes with
  | .error e => .error e
  | .ok message => .ok (encode target message)

end Document

end InferenceConfig
