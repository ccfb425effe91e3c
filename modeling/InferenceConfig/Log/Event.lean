import InferenceConfig.Document.Format
import InferenceConfig.Text.Quoted
import InferenceConfig.Wire.Key

/-!
# Log Events

What happens while documents are read and written can be logged. An event has a level, a
target that names the part of the program it comes from, fields, and a text that shows them.

## Main definitions

* `Level` — the levels of events, from errors to traces;
* `Event` — the events;
* `Event.line` — the line of an event.
-/

namespace InferenceConfig

/-- The levels of log events. -/
inductive Level where
  /-- Errors. -/
  | error
  /-- Warnings. -/
  | warn
  /-- Reads and writes of files. -/
  | info
  /-- Details of a document. -/
  | debug
  /-- Everything else. -/
  | trace
  deriving DecidableEq, Repr

namespace Level

/-- The position of a level: the more detail, the higher. -/
def rank : Level → Nat
  | .error => 1
  | .warn => 2
  | .info => 3
  | .debug => 4
  | .trace => 5

/-- The word for a level in log lines. -/
def word : Level → String
  | .error => "ERROR"
  | .warn => "WARN"
  | .info => "INFO"
  | .debug => "DEBUG"
  | .trace => "TRACE"

end Level

/-- What can be logged. -/
inductive Event where
  /-- A file has been read and is about to be decoded. -/
  | reading (location : Location) (format : Format) (kind : Kind)
  /-- A record of an unknown field is about to be skipped. -/
  | skipping (kind : Kind) (key : Key)
  /-- A document in text form has been read to its end. -/
  | parsed (kind : Kind) (origin : String)
  /-- A file has been written. -/
  | wrote (location : Location) (format : Format) (size : Nat)
  deriving DecidableEq, Repr

namespace Event

/-- The level of an event. -/
def level : Event → Level
  | .reading .. => .info
  | .skipping .. => .debug
  | .parsed .. => .debug
  | .wrote .. => .info

/-- The part of the program that an event comes from. -/
def target : Event → String
  | .reading .. => "bulk_inference_spec::config"
  | .skipping .. => "bulk_inference_spec::wire::codec"
  | .parsed .. => "bulk_inference_spec::text::parse"
  | .wrote .. => "bulk_inference_spec::config"

/-- The names of what an event carries. -/
def fields : Event → List String
  | .reading .. => ["message", "path", "format"]
  | .skipping .. => ["message", "field", "wire_type"]
  | .parsed .. => ["message", "origin"]
  | .wrote .. => ["message", "path", "format", "bytes"]

/-- The text of an event. -/
def text : Event → String
  | .reading location format kind =>
    "reading message path=" ++ location.display ++ " format=" ++ format.name ++ " "
      ++ kind.name
  | .skipping kind key =>
    "skipping unknown field " ++ kind.name ++ " field=" ++ toString key.number
      ++ " wire_type=" ++ key.wireType.name
  | .parsed kind origin =>
    "parsed text message " ++ kind.name ++ " origin=" ++ Quoted.ofString origin
  | .wrote location format size =>
    "wrote message path=" ++ location.display ++ " format=" ++ format.name ++ " bytes="
      ++ toString size

/-- The line of an event. -/
def line (event : Event) : String :=
  event.level.word ++ " " ++ event.target ++ ": " ++ event.text

end Event

end InferenceConfig
