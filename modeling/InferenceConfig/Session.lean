import InferenceConfig.Document.Codec
import InferenceConfig.Document.Report
import InferenceConfig.Wire.Merge

/-!
# Sessions

A session keeps a message and a second one aside, and changes them step by step. Only some
steps can fail. A step that merges changes the message in place, so the session goes on with the
message as the merging leaves it, even if that fails. A document that cannot be read gives no
message to go on with.

## Main definitions

* `Session` — the two messages;
* `Session.Step`, `Session.Answer` — what can be done, and what comes back;
* `Session.step` — one step.
-/

namespace InferenceConfig

/-- A message that is being worked on, and one that is kept aside. -/
structure Session (kind : Kind) where
  /-- The message that is being worked on. -/
  message : Message kind
  /-- The message that is kept aside. -/
  stash : Message kind

namespace Session

/-- What can be done in a session. -/
inductive Step : Kind → Type where
  /-- Takes another message. -/
  | replace {kind : Kind} (message : Message kind) : Step kind
  /-- Appends a signature name. -/
  | addSignatureName (name : String) : Step .model
  /-- Appends a tag. -/
  | addTag (tag : String) : Step .model
  /-- Appends a split. -/
  | addSplit (split : String) : Step .data
  /-- Removes all values. -/
  | clear {kind : Kind} : Step kind
  /-- Merges records. -/
  | merge {kind : Kind} (bytes : List UInt8) : Step kind
  /-- Merges records that come behind their length. -/
  | mergeDelimited {kind : Kind} (bytes : List UInt8) : Step kind
  /-- Merges the record that starts with the key. -/
  | mergeField {kind : Kind} (key : Key) (bytes : List UInt8) : Step kind
  /-- Takes the message of a document. -/
  | load {kind : Kind} (format : Format) (bytes : List UInt8) : Step kind
  /-- Gives the document of the message. -/
  | save {kind : Kind} (format : Format) : Step kind
  /-- Gives the report on the message. -/
  | report {kind : Kind} : Step kind
  /-- Puts the message aside as well. -/
  | stash {kind : Kind} : Step kind
  /-- Exchanges the two messages. -/
  | swap {kind : Kind} : Step kind
  /-- Merges the records of the message that is kept aside. -/
  | mergeStash {kind : Kind} : Step kind
  /-- Compares the two messages. -/
  | equalsStash {kind : Kind} : Step kind

/-- What comes back from a step. -/
inductive Answer where
  /-- The step is done. -/
  | done
  /-- A record could not be merged. -/
  | notMerged (e : Wire.DecodeError)
  /-- A document could not be read. -/
  | notLoaded (e : Document.Error)
  /-- The record is merged, and so many bytes follow it. -/
  | left (count : Nat)
  /-- The document of the message. -/
  | document (format : Format) (bytes : List UInt8)
  /-- The report on the message. -/
  | report (text : String)
  /-- Whether the two messages are equal. -/
  | equal (value : Bool)

variable {kind : Kind}

/-- The session without any value. -/
def empty (kind : Kind) : Session kind :=
  ⟨Message.empty kind, Message.empty kind⟩

/-- The session after merging, and whether all records could be merged. -/
def ofMerged (session : Session kind) (merged : Wire.Merged kind) :
    Answer × Session kind :=
  let answer := match merged.error? with
    | none => Answer.done
    | some e => .notMerged e
  (answer, { session with message := merged.message })

/-- One step: its answer, and the session afterwards. -/
def step : {kind : Kind} → Session kind → Step kind → Answer × Session kind
  | _, session, .replace message => (.done, { session with message })
  | _, session, .addSignatureName name =>
    (.done, { session with message := ModelSpec.withSignatureName session.message name })
  | _, session, .addTag tag =>
    (.done, { session with message := ModelSpec.withTag session.message tag })
  | _, session, .addSplit split =>
    (.done, { session with message := DataSpec.withSplit session.message split })
  | kind, session, .clear => (.done, { session with message := Message.empty kind })
  | _, session, .merge bytes => session.ofMerged (Wire.merge session.message bytes)
  | _, session, .mergeDelimited bytes =>
    session.ofMerged (Wire.mergeDelimited session.message bytes)
  | _, session, .mergeField key bytes =>
    let (outcome, message) := Wire.mergeField Wire.nestingBudget session.message key bytes
    let answer := match outcome with
      | .error e => Answer.notMerged e
      | .ok rest => .left rest.length
    (answer, { session with message })
  | kind, session, .load format bytes =>
    match Document.decode kind format bytes with
    | .error e => (.notLoaded e, session)
    | .ok message => (.done, { session with message })
  | _, session, .save format =>
    (.document format (Document.encode format session.message), session)
  | _, session, .report => (.report session.message.report, session)
  | _, session, .stash => (.done, { session with stash := session.message })
  | _, session, .swap => (.done, ⟨session.stash, session.message⟩)
  | _, session, .mergeStash =>
    session.ofMerged (Wire.merge session.message (Wire.encode session.stash))
  | _, session, .equalsStash => (.equal (session.message = session.stash), session)

end Session

end InferenceConfig
