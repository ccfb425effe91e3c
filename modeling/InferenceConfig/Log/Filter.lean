import InferenceConfig.Log.Directive
import InferenceConfig.Text.Line

/-!
# Log Filters

A filter is a list of directives with commas between them. Each event obeys one of the
directives that hold for it: the one that outranks the others, or else the last of those
that none outranks. Pieces of the list that are no directives are ignored with a complaint,
empty ones without. If no directive is left, only errors pass.

## Main definitions

* `LogFilter`, `LogFilter.parse` — the filters, and the one that a text spells;
* `LogFilter.admits` — whether an event passes;
* `LogFilter.lines` — the lines of a log.
-/

namespace InferenceConfig

/-- What passes into the log. -/
structure LogFilter where
  /-- The directives, in order. -/
  directives : List Directive := []
  /-- What there is to say about the other pieces. -/
  complaints : List String := []
  deriving DecidableEq, Repr

namespace LogFilter

/-- The pieces of a text between its commas; there is always at least one. -/
def splitCommas : (text : List Char) → List (List Char)
  | [] => [[]]
  | c :: rest =>
    if c = ',' then [] :: splitCommas rest
    else
      match splitCommas rest with
      | [] => [[c]]
      | piece :: pieces => (c :: piece) :: pieces

/-- The directive that a piece of the filter spells. -/
def directive? (piece : List Char) : Option Directive :=
  (Directive.parse piece).toOption

/-- What there is to say about a piece of the filter that is no directive. -/
def complaint? (piece : List Char) : Option String :=
  match Directive.parse piece with
  | .ok _ => none
  | .error e => some ("ignoring `" ++ String.ofList piece ++ "`: " ++ e.message)

/-- The filter that the text spells. -/
def parse (text : String) : LogFilter :=
  let pieces := (splitCommas text.toList).filter (· ≠ [])
  let directives := pieces.filterMap directive?
  { directives := if directives = [] then [{ rank := Level.error.rank }] else directives
    complaints := pieces.filterMap complaint? }

/-- The directive that an event obeys. -/
def directiveFor? (filter : LogFilter) (event : Event) : Option Directive :=
  match filter.directives.filter (·.concerns event) with
  | [] => none
  | first :: rest =>
    some (rest.foldl (fun best next => if best.outranks next then best else next) first)

/-- Whether the event passes. -/
def admits (filter : LogFilter) (event : Event) : Bool :=
  match filter.directiveFor? event with
  | none => false
  | some directive => event.level.rank ≤ directive.rank

/-- The lines of a log: the complaints, and then the events that pass, in order. A file name
may contain line feeds, so an event may take several lines. -/
def lines (filter : LogFilter) (events : List Event) : List String :=
  let entries := filter.complaints ++ (events.filter filter.admits).map Event.line
  entries.flatMap fun entry => (Line.split entry.toList).map String.ofList

end LogFilter

end InferenceConfig
