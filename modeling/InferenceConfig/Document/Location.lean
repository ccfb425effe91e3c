import InferenceConfig.Unicode.Utf8

/-!
# Locations of Files

A location is a path as the command line gives it: bytes, with slashes between its parts.
Bytes that are not UTF-8 are allowed everywhere and only matter when the path is shown.

## Main definitions

* `Location.parts` — the parts between the slashes, the empty ones included;
* `Location.fileName?` — the last part that names something;
* `Location.extension?` — what follows the last dot of the file name;
* `Location.display` — the path as text.
-/

namespace InferenceConfig

/-- A path. -/
structure Location where
  /-- The bytes of the path. -/
  bytes : List UInt8
  deriving DecidableEq, Repr, Inhabited

namespace Location

/-- The path that a string spells. -/
def ofString (path : String) : Location :=
  ⟨Utf8.encode path.toList⟩

/-- The path as text, where U+FFFD stands for what is not UTF-8. -/
def display (location : Location) : String :=
  String.ofList (Utf8.decodeLossy location.bytes)

/-- The parts between the slashes of a path, in order; there is always at least one. -/
def splitSlashes : (bytes : List UInt8) → List (List UInt8)
  | [] => [[]]
  | byte :: rest =>
    if byte = 0x2F then [] :: splitSlashes rest
    else
      match splitSlashes rest with
      | [] => [[byte]]
      | part :: parts => (byte :: part) :: parts

/-- The parts between the slashes, the empty ones included. -/
def parts (location : Location) : List (List UInt8) :=
  splitSlashes location.bytes

/-- The part that stands for the directory itself. -/
def here : List UInt8 := [0x2E]

/-- The part that stands for the directory above. -/
def above : List UInt8 := [0x2E, 0x2E]

/-- The last part that is neither empty nor a single dot, unless it is two dots. -/
def fileName? (location : Location) : Option (List UInt8) :=
  match (location.parts.filter fun part => part ≠ [] ∧ part ≠ here).getLast? with
  | none => none
  | some part => if part = above then none else some part

/-- What precedes and what follows the last dot of a name. -/
def splitLastDot? : (name : List UInt8) → Option (List UInt8 × List UInt8)
  | [] => none
  | byte :: rest =>
    match splitLastDot? rest with
    | some (stem, ext) => some (byte :: stem, ext)
    | none => if byte = 0x2E then some ([], rest) else none

/-- What follows the last dot of the file name, unless nothing precedes that dot. -/
def extension? (location : Location) : Option (List UInt8) :=
  match location.fileName? with
  | none => none
  | some name =>
    match splitLastDot? name with
    | none => none
    | some (stem, ext) => if stem = [] then none else some ext

end Location

end InferenceConfig
