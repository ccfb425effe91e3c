import InferenceConfig.Message
import InferenceConfig.Text.Escape
import InferenceConfig.Text.Line
import InferenceConfig.Text.Quoted

/-!
# Messages in Text Form

The text form of a message has one line `name: "value"` for each value, fields by ascending
number. Lines are read in order, and the first line at fault decides the error: its shape
is looked at first, then the name of the field, then the escapes of the value.

## Main definitions

* `Text.render` — the text form of a message;
* `Text.Error` — the number of the line at fault, and its fault;
* `Text.parse` — the message of a text.
-/

namespace InferenceConfig

namespace Text

/-- The line of one value. -/
def renderEntry (field : Field) (value : String) : List Char :=
  field.name.toList ++ (':' :: ' ' :: '\x22' :: Escape.encode value.toList)
    ++ ['\x22', '\n']

/-- The text form of a message. -/
def render {kind : Kind} (message : Message kind) : List Char :=
  message.entries.flatMap fun (field, value) => renderEntry field value

/-- What can be wrong with a line. -/
inductive Fault where
  /-- The line is neither blank nor an entry. -/
  | malformed (line : List Char)
  /-- The kind has no field of this name. -/
  | unknownField (name : List Char)
  /-- The body has a faulty escape. -/
  | badValue (body : List Char) (cause : Escape.Fault)
  /-- The message stores no list for the field. -/
  | noStorage (field : Field)
  deriving DecidableEq, Repr

/-- The first line at fault. -/
structure Error where
  /-- The kind of message that was read. -/
  kind : Kind
  /-- The number of the line, counted from one. -/
  line : Nat
  /-- What is wrong with it. -/
  fault : Fault
  deriving DecidableEq, Repr

/-- The wording of an error in a document from `origin`: the messages from the outermost to
the innermost cause. -/
def Error.messages (e : Error) (origin : String) : List String :=
  let place := origin ++ ":" ++ toString e.line
  let opening := e.kind.name ++ " parse error at " ++ place ++ ": "
  match e.fault with
  | .malformed line => [opening ++ "cannot parse line: " ++ Quoted.ofChars line]
  | .unknownField name => [opening ++ "unknown field " ++ Quoted.ofChars name]
  | .badValue body cause =>
    ["bad string value at " ++ place ++ ": " ++ String.ofList body, cause.message]
  | .noStorage field => [e.kind.name ++ " has no storage for field " ++ field.name]

/-- The message with what one line adds to it. -/
def addLine {kind : Kind} (message : Message kind) (line : List Char) :
    Except Fault (Message kind) :=
  match Line.ofChars line with
  | .blank => .ok message
  | .malformed => .error (.malformed line)
  | .entry name body =>
    match kind.fieldWithName? (String.ofList name) with
    | none => .error (.unknownField name)
    | some field =>
      match Escape.decode body with
      | .error cause => .error (.badValue body cause)
      | .ok value =>
        match message.push? field.number (String.ofList value) with
        | none => .error (.noStorage field)
        | some message => .ok message

/-- The message with what all lines add to it, the first of which has the given number. -/
def addLines {kind : Kind} (message : Message kind) :
    (number : Nat) → (lines : List (List Char)) → Except Error (Message kind)
  | _, [] => .ok message
  | number, line :: lines =>
    match addLine message line with
    | .error fault => .error ⟨kind, number, fault⟩
    | .ok message => addLines message (number + 1) lines

/-- The message of a text. -/
def parse (kind : Kind) (text : List Char) : Except Error (Message kind) :=
  addLines (Message.empty kind) 1 (Line.split text)

end Text

end InferenceConfig
