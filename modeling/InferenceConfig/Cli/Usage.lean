import InferenceConfig.Document.Format
import InferenceConfig.Message

/-!
# Command Line Usage

The arguments are options of the program, the word for a command, and options of that
command. An option takes a value: the next argument, or what follows an equals sign or a
short name. A value that starts with a dash must be attached, except for a single dash. No
option may occur twice at a level, and there are no other arguments.

Arguments are strings here. A path need not be UTF-8 elsewhere (`Location` has its bytes), but
one that is not cannot be given as an argument, so it is left out of what is said of whole runs.

## Main definitions

* `Flag`, `Settings` — the options, and those that are set;
* `Command`, `Invocation` — what the program is to do;
* `Detour` — what the arguments can be instead;
* `Invocation.parse` — the meaning of the arguments.
-/

namespace InferenceConfig

/-- The options. -/
inductive Flag where
  /-- The kind of message. -/
  | kind
  /-- The file to read. -/
  | input
  /-- The file to write. -/
  | output
  /-- The format of the file to read. -/
  | source
  /-- The format of the file to write. -/
  | target
  /-- The log filter. -/
  | log
  deriving DecidableEq, Repr

namespace Flag

/-- The long name of an option. -/
def name : Flag → String
  | .kind => "kind"
  | .input => "input"
  | .output => "output"
  | .source => "from"
  | .target => "to"
  | .log => "log"

/-- The short name of an option. -/
def letter? : Flag → Option Char
  | .input => some 'i'
  | .output => some 'o'
  | _ => none

end Flag

/-- What the program is to do. -/
inductive Command where
  /-- Writes the message of a file to another file. -/
  | convert (kind : Kind) (input : Location) (source : Option Format) (output : Location)
      (target : Option Format)
  /-- Shows the message of a file. -/
  | report (kind : Kind) (input : Location) (source : Option Format)
  deriving DecidableEq, Repr

/-- A command to be carried out under a log filter. -/
structure Invocation where
  /-- The text of the filter. -/
  filter : String
  /-- The command. -/
  command : Command
  deriving DecidableEq, Repr

/-- What the arguments can be instead of an invocation. -/
inductive Detour where
  /-- A request for the version of the program. -/
  | version
  /-- A request for a summary of the usage. -/
  | help
  /-- Wrong usage. -/
  | misuse
  deriving DecidableEq, Repr

/-- The values of the options at one level, in order. -/
abbrev Settings := List (Flag × String)

namespace Settings

/-- The value of an option. -/
def value? (settings : Settings) (flag : Flag) : Option String :=
  settings.lookup flag

end Settings

/-- An argument that may stand for an option. -/
inductive Argument where
  /-- The end of the options. -/
  | separator
  /-- A long name, and the value after an equals sign. -/
  | long (name : String) (value : Option String)
  /-- A short name, and the value attached to it. -/
  | short (letter : Char) (value : Option String)
  /-- Anything else. -/
  | word (text : String)
  deriving DecidableEq, Repr

namespace Argument

/-- What follows the first equals sign in the text, if there is one. -/
def attached? (text : List Char) : Option String :=
  match text.dropWhile (· ≠ '=') with
  | [] => none
  | _ :: value => some (String.ofList value)

/-- The reading of an argument. -/
def ofString (argument : String) : Argument :=
  match argument.toList with
  | ['-', '-'] => .separator
  | '-' :: '-' :: text =>
    .long (String.ofList (text.takeWhile (· ≠ '='))) (attached? text)
  | '-' :: letter :: text =>
    match text with
    | [] => .short letter none
    | '=' :: value => .short letter (some (String.ofList value))
    | value => .short letter (some (String.ofList value))
  | _ => .word argument

/-- Whether the argument can be the value of the option before it. -/
def isValue (argument : String) : Bool :=
  match ofString argument with
  | .word _ => true
  | _ => false

end Argument

/-- The kind that a word stands for. -/
def Kind.ofWord? (word : String) : Option Kind :=
  if word == "model" then some .model else if word == "data" then some .data else none

/-- Whether the value is one that the option takes. -/
def Flag.accepts (flag : Flag) (value : String) : Bool :=
  match flag with
  | .kind => (Kind.ofWord? value).isSome
  | .input | .output => !value.isEmpty
  | .source | .target => (Format.ofWord? value).isSome
  | .log => true

namespace Settings

/-- The settings with one more. An option is set once, to a value that it takes. -/
def set (settings : Settings) (flag : Flag) (value : String) : Except Detour Settings :=
  if (settings.value? flag).isSome || !flag.accepts value then .error .misuse
  else .ok (settings ++ [(flag, value)])

/-- The one of the `known` options that an argument stands for, with the value attached to
it. -/
def flagOf? (known : List Flag) (argument : String) : Option (Flag × Option String) :=
  let withValue (value : Option String) (flag : Flag) := (flag, value)
  match Argument.ofString argument with
  | .long name value => (known.find? fun flag => flag.name == name).map (withValue value)
  | .short letter value =>
    (known.find? fun flag => flag.letter? == some letter).map (withValue value)
  | _ => none

/-- Reads `known` options with their values, up to the first argument that is not one of
them, and gives that argument and what follows it. -/
def read (known : List Flag) (settings : Settings) :
    (arguments : List String) → Except Detour (Settings × List String)
  | [] => .ok (settings, [])
  | argument :: rest =>
    match flagOf? known argument with
    | none => .ok (settings, argument :: rest)
    | some (flag, some value) =>
      match settings.set flag value with
      | .error detour => .error detour
      | .ok settings => read known settings rest
    | some (flag, none) =>
      match rest with
      | [] => .error .misuse
      | value :: rest =>
        if !Argument.isValue value then .error .misuse
        else
          match settings.set flag value with
          | .error detour => .error detour
          | .ok settings => read known settings rest

/-- Reads `known` options with their values, behind which nothing may follow but the end of
the options. -/
def readAll (known : List Flag) (arguments : List String) : Except Detour Settings :=
  match read known [] arguments with
  | .error detour => .error detour
  | .ok (settings, []) => .ok settings
  | .ok (settings, argument :: rest) =>
    match Argument.ofString argument with
    | .separator => if rest.isEmpty then .ok settings else .error .misuse
    | .long name none => .error (if name == "help" then .help else .misuse)
    | .short letter _ => .error (if letter == 'h' then .help else .misuse)
    | _ => .error .misuse

/-- The format that an option asks for, if it is set. -/
def format? (settings : Settings) (flag : Flag) : Option Format :=
  (settings.value? flag).bind Format.ofWord?

/-- The kind that is asked for, if it is set. -/
def kind? (settings : Settings) : Option Kind :=
  (settings.value? .kind).bind Kind.ofWord?

end Settings

namespace Invocation

/-- The filter that holds unless another one is given. -/
def defaultFilter : String := "warn"

/-- The filter that is given for the command, or else before it. -/
def filterOf (outer settings : Settings) : String :=
  ((settings.value? .log).or (outer.value? .log)).getD defaultFilter

/-- The invocation of `convert` with these options. -/
def ofConvert (outer : Settings) (arguments : List String) : Except Detour Invocation :=
  match Settings.readAll [.kind, .input, .output, .source, .target, .log] arguments with
  | .error detour => .error detour
  | .ok settings =>
    match settings.kind?, settings.value? .input, settings.value? .output with
    | some kind, some input, some output =>
      let command := Command.convert kind (.ofString input) (settings.format? .source)
        (.ofString output) (settings.format? .target)
      .ok ⟨filterOf outer settings, command⟩
    | _, _, _ => .error .misuse

/-- The invocation of `show` with these options. -/
def ofShow (outer : Settings) (arguments : List String) : Except Detour Invocation :=
  match Settings.readAll [.kind, .input, .source, .log] arguments with
  | .error detour => .error detour
  | .ok settings =>
    match settings.kind?, settings.value? .input with
    | some kind, some input =>
      let command := Command.report kind (.ofString input) (settings.format? .source)
      .ok ⟨filterOf outer settings, command⟩
    | _, _ => .error .misuse

/-- What `help` asks for: a summary of the usage, also on behalf of one command. -/
def helpOn : (arguments : List String) → Detour
  | [] => .help
  | [command] => if ["convert", "show", "help"].contains command then .help else .misuse
  | _ => .misuse

/-- The invocation that the arguments spell, or what they are instead. All arguments are UTF-8,
the paths among them too. -/
def parse (arguments : List String) : Except Detour Invocation :=
  match Settings.read [.log] [] arguments with
  | .error detour => .error detour
  | .ok (_, []) => .error .misuse
  | .ok (outer, argument :: rest) =>
    match Argument.ofString argument with
    | .separator => .error .misuse
    | .long name none =>
      .error (if name == "version" then .version else if name == "help" then .help
        else .misuse)
    | .long _ (some _) => .error .misuse
    | .short letter _ =>
      .error (if letter == 'V' then .version else if letter == 'h' then .help else .misuse)
    | .word command =>
      if command == "convert" then ofConvert outer rest
      else if command == "show" then ofShow outer rest
      else if command == "help" then .error (helpOn rest)
      else .error .misuse

end Invocation

end InferenceConfig
