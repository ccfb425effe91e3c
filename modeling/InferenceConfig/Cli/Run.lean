import InferenceConfig.Cli.Usage
import InferenceConfig.Document.Report
import InferenceConfig.Folder.Convert
import InferenceConfig.Log.Filter

/-!
# Running a Command

A run of the program is a function of the arguments and of the answers to its reads and
writes. It ends with an exit code and with what is printed.

## Main definitions

* `Outcome` — the exit code and the output;
* `Outcome.failed` — an error with its causes;
* `Command.task` — the work of a command;
* `Detour.outcome` — the outcome of arguments that are no command;
* `Run.ofArguments` — a whole run in a folder.
-/

namespace InferenceConfig

/-- How a run ends. -/
structure Outcome where
  /-- The exit code: 0 on success, 1 on failure, 2 if the usage is wrong. -/
  exit : Nat
  /-- What is printed on standard output. -/
  output : String := ""
  /-- What is printed on standard error, apart from the log. -/
  error : String := ""
  deriving DecidableEq, Repr

namespace Outcome

/-- A cause below an error: behind its number, if there are several causes, and with all
its lines indented. -/
def cause (number? : Option Nat) (text : String) : String :=
  let opening := match number? with
    | none => "    "
    | some number => String.ofList (List.replicate (5 - (toString number).length) ' ')
      ++ toString number ++ ": "
  let indent := match number? with
    | none => "    "
    | some _ => "       "
  opening ++ String.ofList (text.toList.flatMap fun c =>
    if c = '\n' then '\n' :: indent.toList else [c])

/-- The report on an error whose messages go from the outermost to the innermost cause. -/
def errorReport : (messages : List String) → String
  | [] => "Error: \n"
  | [text] => "Error: " ++ text ++ "\n"
  | [text, source] =>
    "Error: " ++ text ++ "\n\nCaused by:\n" ++ cause none source ++ "\n"
  | text :: sources =>
    "Error: " ++ text ++ "\n\nCaused by:\n"
      ++ String.join (sources.zipIdx.map fun (source, number) =>
        cause (some number) source ++ "\n")

/-- The outcome of a command that failed. -/
def failed (e : FileError) : Outcome :=
  { exit := 1, error := errorReport e.messages }

end Outcome

/-- The work of a command, and how the run ends. -/
def Command.task : Command → FileTask Outcome
  | .convert kind input source output target =>
    (FileTask.convert kind input source output target).bind fun
      | .error e => .done (.failed e)
      | .ok () => .done { exit := 0, output := "Wrote " ++ output.display ++ "\n" }
  | .report kind input source =>
    (FileTask.readMessage kind input source).bind fun
      | .error e => .done (.failed e)
      | .ok message => .done { exit := 0, output := message.report }

/-- The name and version of the program. -/
def versionText : String := "bulk-inference-spec 0.1.0\n"

/-- A summary of the usage. -/
def helpText : String :=
  "Convert and inspect bulk-inference ModelSpec/DataSpec files\n\n"
    ++ "Usage: bulk-inference-spec [--log <LOG>] <COMMAND>\n\nCommands:\n"
    ++ "  convert --kind <KIND> -i <INPUT> -o <OUTPUT> [--from <FORMAT>] [--to <FORMAT>]\n"
    ++ "  show --kind <KIND> -i <INPUT> [--from <FORMAT>]\n\n"
    ++ "Kinds: model, data\nFormats: json, text, binary\n"

/-- The outcome of arguments that are no invocation. -/
def Detour.outcome : Detour → Outcome
  | .version => { exit := 0, output := versionText }
  | .help => { exit := 0, output := helpText }
  | .misuse =>
    { exit := 2, error := "error: wrong usage\n\nFor more information, try '--help'.\n" }

/-- The log filter and the work of a run with these arguments. -/
def Run.plan (arguments : List String) : LogFilter × FileTask Outcome :=
  match Invocation.parse arguments with
  | .error detour => ({}, .done detour.outcome)
  | .ok invocation => (LogFilter.parse invocation.filter, invocation.command.task)

/-- What a run leaves behind. -/
structure Run where
  /-- How it ended. -/
  outcome : Outcome
  /-- The log lines, in order. -/
  log : List String
  /-- The folder afterwards. -/
  folder : Folder

/-- A run of the program with these arguments in a folder. -/
def Run.ofArguments (folder : Folder) (arguments : List String) : Run :=
  let (filter, task) := Run.plan arguments
  let result := task.run folder
  { outcome := result.value
    log := filter.lines result.events
    folder := result.folder }

end InferenceConfig
