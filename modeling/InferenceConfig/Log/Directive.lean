import InferenceConfig.Log.Event
import InferenceConfig.Unicode.Alphanumeric
import InferenceConfig.Unicode.Blank

/-!
# Log Directives

A directive lets events pass up to a level. It is a level alone, or it has the form
`target[span{field=value}]=level`, any part of which may be missing, and holds for the
events whose target starts with `target`, inside a span of that name, that carry that field.
Without a level it lets everything pass.

The form of a directive is found in its text without the white space around it. Its parts
are then cut out at the same places of the text with the white space. So white space in
front shifts the parts, and white space at the end belongs to the last one.

## Main definitions

* `Directive` — the directives;
* `Directive.parse` — the directive that a text spells;
* `Directive.concerns` — whether a directive holds for an event;
* `Directive.outranks` — which of two directives an event obeys.
-/

namespace InferenceConfig

/-- What passes, and up to which level. -/
structure Directive where
  /-- What the targets start with. -/
  target : Option String := none
  /-- The field that the events carry. -/
  field : Option String := none
  /-- Whether the directive holds inside a span only: it names one, or it asks for the value
  of a field, which spans alone are compared with. -/
  insideSpan : Bool := false
  /-- The greatest rank that passes; none passes with zero. -/
  rank : Nat := Level.trace.rank
  deriving DecidableEq, Repr

/-- Why a text is no directive. -/
inductive DirectiveError where
  /-- It does not have the form of one. -/
  | malformed
  /-- There is no level of that name. -/
  | unknownLevel
  deriving DecidableEq, Repr

/-- The text of an error. -/
def DirectiveError.message : DirectiveError → String
  | .malformed => "invalid filter directive"
  | .unknownLevel =>
    "error parsing level filter: expected one of \"off\", \"error\", \"warn\", \"info\", "
      ++ "\"debug\", \"trace\", or a number 0-5"

namespace Directive

/-- The words for the ranks, from zero on. -/
def rankWords : List String :=
  ["off", "error", "warn", "info", "debug", "trace"]

/-- The number that decimal digits spell, with a plus sign in front or without one. -/
def number? (text : List Char) : Option Nat :=
  let digits := match text with
    | '+' :: digits => digits
    | digits => digits
  if digits.isEmpty || !digits.all Char.isDigit then none
  else some (digits.foldl (fun number digit => 10 * number + (digit.toNat - 48)) 0)

/-- The rank that a word stands for: a number from 0 to 5, or the name of a level in any
case. -/
def rankOfWord? (word : String) : Option Nat :=
  match number? word.toList with
  | some number => if number < rankWords.length then some number else none
  | none => rankWords.idxOf? (word.map Char.toLower)

/-- The directive with the level that a word stands for; the empty word changes nothing. -/
def withLevel (directive : Directive) (word : String) : Except DirectiveError Directive :=
  if word.isEmpty then .ok directive
  else
    match rankOfWord? word with
    | none => .error .unknownLevel
    | some rank => .ok { directive with rank := rank }

/-- A character that decides about the form of a directive, and the one that is cut out. -/
abbrev Cell := Char × Char

/-- The part of a directive that the cells hold. -/
def part (cells : List Cell) : String :=
  String.ofList (cells.map Prod.snd)

/-- Whether a target may start with the character. -/
def isTargetStart (c : Char) : Bool :=
  isAlphanumeric c || c == '_' || c == ':' || c == '-'

/-- Reads what may follow the closing bracket: an equals sign and a level. -/
def readLevel (directive : Directive) (beyond : String) :
    (cells : List Cell) → Except DirectiveError Directive
  | [] => .ok directive
  | (sign, _) :: rest =>
    if sign = '=' then directive.withLevel (part rest ++ beyond) else .error .malformed

/-- Reads what follows the opening brace: a field, and perhaps its value. -/
def readField (target : Option String) (insideSpan : Bool) (beyond : String)
    (cells : List Cell) : Except DirectiveError Directive :=
  let text := (cells.takeWhile (·.1 ≠ '\x7d')).map Prod.snd
  match cells.dropWhile (·.1 ≠ '\x7d') with
  | _ :: (bracket, _) :: rest =>
    if text = [] ∨ bracket ≠ ']' then .error .malformed
    else
      let field := String.ofList (text.takeWhile (· ≠ '='))
      readLevel ⟨target, some field, insideSpan || text.contains '=', Level.trace.rank⟩
        beyond rest
  | _ => .error .malformed

/-- Reads what follows the opening bracket: the name of a span, and perhaps a field. -/
def readSpan (target : Option String) (beyond : String) (cells : List Cell) :
    Except DirectiveError Directive :=
  let isEnd (cell : Cell) : Bool := cell.1 == ']' || cell.1 == '\x7b'
  match cells.dropWhile fun cell => !isEnd cell with
  | [] => .error .malformed
  | (sign, _) :: rest =>
    if sign = ']' then readLevel ⟨target, none, true, Level.trace.rank⟩ beyond rest
    else
      let name := cells.takeWhile fun cell => !isEnd cell
      readField target (!name.isEmpty) beyond rest

/-- Reads a directive that does not start with a bracket. -/
def readTarget (beyond : String) (cells : List Cell) : Except DirectiveError Directive :=
  let isEnd (cell : Cell) : Bool := cell.1 == '=' || cell.1 == '['
  let target := part (cells.takeWhile fun cell => !isEnd cell)
  match cells.dropWhile fun cell => !isEnd cell with
  | [] =>
    let word := target ++ beyond
    match rankOfWord? word with
    | some rank => .ok { rank := rank }
    | none => .ok { target := some word }
  | (sign, _) :: rest =>
    if sign = '[' then readSpan (some target) beyond rest
    else withLevel { target := some target } (part rest ++ beyond)

/-- The directive that the text spells. -/
def parse (text : List Char) : Except DirectiveError Directive :=
  let form := trimBlanks text
  let beyond := String.ofList (text.drop form.length)
  match form.zip text with
  | [] => .error .malformed
  | (first, kept) :: rest =>
    if first = '[' then readSpan none beyond rest
    else if isTargetStart first then readTarget beyond ((first, kept) :: rest)
    else .error .malformed

/-- Whether the directive holds for the event. No event of the program is inside a span. -/
def concerns (directive : Directive) (event : Event) : Bool :=
  !directive.insideSpan
    && directive.target.all (fun target => target.toList.isPrefixOf event.target.toList)
    && directive.field.all event.fields.contains

/-- How much of the target a directive asks for; least if it asks for none. -/
def breadth (directive : Directive) : Nat :=
  match directive.target with
  | none => 0
  | some target => target.utf8ByteSize + 1

/-- Whether an event that both directives hold for obeys the first one wherever it stands:
it asks for more of the target, or for a field while the other one does not, or for a field
whose name comes later. -/
def outranks (first second : Directive) : Bool :=
  if first.breadth ≠ second.breadth then second.breadth < first.breadth
  else
    match first.field, second.field with
    | none, _ => false
    | some _, none => true
    | some field, some other => other < field

end Directive

end InferenceConfig
