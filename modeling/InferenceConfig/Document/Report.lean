import InferenceConfig.Message.Selection
import InferenceConfig.Text.Form

/-!
# Reports on Messages

A report shows a message in text form, or a remark that it is empty, and below a line of
dashes a summary of what it selects.

## Main definitions

* `ModelSpec.summary`, `DataSpec.summary` — what a message selects;
* `Message.report` — the report;
* `Message.inspect` — a message on one line, with the names of its fields.
-/

namespace InferenceConfig

/-- The heads of the model and the tags of the graph. -/
def ModelSpec.summary (spec : ModelSpec) : String :=
  let heads := match spec.signatureSelection with
    | .default =>
      "single-head (default signature "
        ++ Quoted.ofString (spec.effectiveSignatureNames.headD "") ++ ")"
    | .single name => "single-head (" ++ Quoted.ofString name ++ ")"
    | .multi names => "multi-head " ++ Quoted.ofList names
  "heads: " ++ heads ++ "\ntags: " ++ Quoted.ofList spec.effectiveTags

/-- The splits of the data. -/
def DataSpec.summary (spec : DataSpec) : String :=
  if spec.processesAllSplits then "splits: all"
  else "splits: " ++ Quoted.ofList spec.exampleSplits

namespace Message

/-- What the message selects. -/
def summary : {kind : Kind} → Message kind → String
  | .model, message => ModelSpec.summary message
  | .data, message => DataSpec.summary message

variable {kind : Kind}

/-- The text form of the message, or a remark that it is empty. -/
def reportBody (message : Message kind) : String :=
  match Text.render message with
  | [] => "# (all fields empty)\n"
  | text => String.ofList text

/-- The text form of the message and a summary of what it selects. -/
def report (message : Message kind) : String :=
  message.reportBody ++ "---\n" ++ message.summary ++ "\n"

/-- The message on one line: the title of its kind and the list of every field. -/
def inspect (message : Message kind) : String :=
  let members := kind.fields.map fun field =>
    field.name ++ ": " ++ Quoted.ofList (message.values field.number)
  kind.title ++ " \x7b " ++ String.intercalate ", " members ++ " \x7d"

end Message

end InferenceConfig
