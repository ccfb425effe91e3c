/-!
# Ranges of Code Points

A property of characters is a table: the ranges of code points that have it, in ascending
order.

## Main definitions

* `CodeRange` — a range of code points;
* `CodeRange.includes` — whether a table includes a code point.
-/

namespace InferenceConfig

/-- A range of code points, with both ends included. -/
abbrev CodeRange := Nat × Nat

/-- Whether one of the ranges includes the code point. -/
def CodeRange.includes (table : List CodeRange) (code : Nat) : Bool :=
  table.any fun range => decide (range.1 ≤ code) && decide (code ≤ range.2)

end InferenceConfig
