import InferenceConfig.Document.Codec
import InferenceConfig.Folder.FileTask

/-!
# Message Files

A message file is a file that holds a document, in a given format or in the one that its
extension stands for. The format is settled before the file is touched, and a file is only
written once the whole document is there.

## Main definitions

* `FileError` — why a message file cannot be read or written;
* `FileTask.readMessage`, `FileTask.writeMessage` — one message file;
* `FileTask.convert` — the message of one file, written to another.
-/

namespace InferenceConfig

/-- Why a message file cannot be read or written. -/
inductive FileError where
  /-- No format is given, and the extension stands for none. -/
  | unknownFormat (location : Location)
  /-- The file cannot be read. -/
  | read (location : Location) (source : IoError)
  /-- The file does not hold a document. -/
  | malformed (location : Location) (source : Document.Error)
  /-- The file cannot be written. -/
  | write (location : Location) (source : IoError)
  deriving DecidableEq, Repr

/-- The messages of an error, from the outermost to the innermost cause. -/
def FileError.messages : FileError → List String
  | .unknownFormat location =>
    ["cannot infer format of " ++ location.display
      ++ "; pass it explicitly (json, text, binary)"]
  | .read location source => ["read " ++ location.display, source.message]
  | .malformed location source => source.messages location.display
  | .write location source => ["write " ++ location.display, source.message]

namespace FileTask

/-- Reads the message of a file. -/
def readMessage (kind : Kind) (location : Location) (explicit : Option Format) :
    FileTask (Except FileError (Message kind)) :=
  match Format.resolve? explicit location with
  | none => .done (.error (.unknownFormat location))
  | some format =>
    .read location fun
      | .error source => .done (.error (.read location source))
      | .ok bytes =>
        let (events, outcome) :=
          Document.decodeTraced kind format location.display bytes
        .log (.reading location format kind) <| logAll events <|
          match outcome with
          | .error source => .done (.error (.malformed location source))
          | .ok message => .done (.ok message)

/-- Writes a message to a file. -/
def writeMessage {kind : Kind} (message : Message kind) (location : Location)
    (explicit : Option Format) : FileTask (Except FileError Unit) :=
  match Format.resolve? explicit location with
  | none => .done (.error (.unknownFormat location))
  | some format =>
    let bytes := Document.encode format message
    .write location bytes fun
      | some source => .done (.error (.write location source))
      | none => .log (.wrote location format bytes.length) (.done (.ok ()))

/-- Reads the message of one file and writes it to another. -/
def convert (kind : Kind) (input : Location) (source : Option Format) (output : Location)
    (target : Option Format) : FileTask (Except FileError Unit) :=
  (readMessage kind input source).bind fun
    | .error e => .done (.error e)
    | .ok message => writeMessage message output target

end FileTask

end InferenceConfig
