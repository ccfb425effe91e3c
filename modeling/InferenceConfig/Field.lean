/-!
# Fields and Field Tables

A message is described by a table of repeated string fields, each with a name and a
number, and by a list of numbers that older revisions used and that must never be
assigned again. This module holds the look-ups in such a table and the check that a
table and its reserved numbers fit together.

## Main definitions

* `Field` — a field's name and number;
* `Field.withNumber?`, `Field.withName?` — the first field of a table with a given
  number or name;
* `Field.isWellFormed` — numbers ascend strictly and none of them is reserved.
-/

namespace InferenceConfig

/-- A repeated string field: the name that text and JSON use, and the number that the
binary form uses. -/
structure Field where
  /-- The name in text and JSON. -/
  name : String
  /-- The number in the binary form. -/
  number : Nat
  deriving DecidableEq, Repr, Inhabited

namespace Field

/-- The first field of the table that has this number. -/
def withNumber? (fields : List Field) (number : Nat) : Option Field :=
  fields.find? fun field => field.number == number

/-- The first field of the table that has this name. -/
def withName? (fields : List Field) (name : String) : Option Field :=
  fields.find? fun field => field.name == name

/-- A table fits its reserved numbers when each field's number is below the next one's
and no field has a reserved number. Only neighbours are compared. -/
def isWellFormed : (fields : List Field) → (reserved : List Nat) → Bool
  | [], _ => true
  | [field], reserved => !reserved.contains field.number
  | field :: next :: rest, reserved =>
    !reserved.contains field.number && decide (field.number < next.number) &&
      isWellFormed (next :: rest) reserved

end Field

end InferenceConfig
