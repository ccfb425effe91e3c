import InferenceConfig.Document.Location

/-!
# Formats of Documents

A document is a message in one of three formats. Unless the format is given, the extension
of the file decides it, whatever the case of its ASCII letters.

## Main definitions

* `Format` — JSON, text and binary;
* `Format.extensions` — the extensions of a format;
* `Format.ofLocation?`, `Format.resolve?` — the format of a file.
-/

namespace InferenceConfig

/-- The formats that a message may be written in. -/
inductive Format where
  /-- A JSON object. -/
  | json
  /-- One line for each value. -/
  | text
  /-- One record for each value. -/
  | binary
  deriving DecidableEq, Repr, Inhabited

namespace Format

/-- All formats. -/
def all : List Format := [.json, .text, .binary]

/-- The word for a format on the command line. -/
def word : Format → String
  | .json => "json"
  | .text => "text"
  | .binary => "binary"

/-- The name of a format in log lines. -/
def name : Format → String
  | .json => "Json"
  | .text => "Text"
  | .binary => "Binary"

/-- The format that a word on the command line stands for. -/
def ofWord? (word : String) : Option Format :=
  all.find? fun format => format.word == word

/-- The extensions of a format, in lower case. -/
def extensions : Format → List String
  | .json => ["json"]
  | .text => ["pbtxt", "textproto", "txt"]
  | .binary => ["pb", "bin"]

/-- The byte with an ASCII capital letter made small. -/
def lowerByte (byte : UInt8) : UInt8 :=
  if 0x41 ≤ byte ∧ byte ≤ 0x5A then byte + 0x20 else byte

/-- The format that an extension stands for. -/
def ofExtension? (ext : List UInt8) : Option Format :=
  let lower := ext.map lowerByte
  all.find? fun format =>
    format.extensions.any fun known => Utf8.encode known.toList == lower

/-- The format that the extension of a file stands for. -/
def ofLocation? (location : Location) : Option Format :=
  match location.extension? with
  | none => none
  | some ext => ofExtension? ext

/-- The given format, or else the one that the extension of the file stands for. -/
def resolve? (explicit : Option Format) (location : Location) : Option Format :=
  match explicit with
  | some format => some format
  | none => ofLocation? location

end Format

end InferenceConfig
