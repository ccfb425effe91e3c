/-!
# Shortest Decimals of Floating-Point Numbers

A binary floating-point number stands for all real numbers that round to it. Of the decimals
among them, the shortest is found on the coarsest decimal grid that has one; of two
neighbours on that grid the nearer is taken, and in a tie the even one. All arithmetic is
exact.

## Main definitions

* `RoundingInterval` — the real numbers that round to a floating-point number;
* `RoundingInterval.nearest?` — the multiple of the unit that is nearest in the interval;
* `Decimal`, `Decimal.shortest` — the shortest decimal;
* `Decimal.toText` — its text, positional or with an exponent.
-/

namespace InferenceConfig

/-- The weight of the leading bit of a significand, which is not stored: `2 ^ 52`. -/
def hiddenBit : Nat := 0x10000000000000

/-- The real numbers that round to a positive floating-point number. The three bounds are
fractions over a common denominator. -/
structure RoundingInterval where
  /-- The numerator of the lower end. -/
  low : Nat
  /-- The numerator of the number itself. -/
  value : Nat
  /-- The numerator of the upper end. -/
  high : Nat
  /-- The common denominator. -/
  denominator : Nat
  /-- Whether the ends round to the number as well. -/
  closed : Bool
  deriving DecidableEq, Repr

namespace RoundingInterval

/-- The interval of the positive number with this exponent field and these fraction bits.
The ends lie halfway to the neighbours, and the lower neighbour of a power of two is only
half as far away. An end rounds to the number with the even significand. -/
def ofFields (exponent fraction : Nat) : RoundingInterval :=
  let significand := if exponent = 0 then fraction else fraction + hiddenBit
  let quarters := 4 * significand
  let below := if fraction = 0 ∧ 1 < exponent then 1 else 2
  let shift : Int := (if exponent = 0 then -1074 else (exponent : Int) - 1075) - 2
  let factor := Nat.pow 2 shift.toNat
  { low := (quarters - below) * factor
    value := quarters * factor
    high := (quarters + 2) * factor
    denominator := Nat.pow 2 (-shift).toNat
    closed := significand % 2 = 0 }

/-- The same interval, measured in units of `10 ^ k`. -/
def inUnits (interval : RoundingInterval) (k : Int) : RoundingInterval :=
  let factor := Nat.pow 10 (-k).toNat
  { interval with
    low := interval.low * factor
    value := interval.value * factor
    high := interval.high * factor
    denominator := interval.denominator * Nat.pow 10 k.toNat }

/-- Whether the interval contains the whole number. -/
def contains (interval : RoundingInterval) (n : Nat) : Bool :=
  let m := n * interval.denominator
  if interval.closed then interval.low ≤ m && m ≤ interval.high
  else interval.low < m && m < interval.high

/-- Of the two whole numbers next to the number, the nearer one that the interval
contains. -/
def nearest? (interval : RoundingInterval) : Option Nat :=
  let below := interval.value / interval.denominator
  let above := below + 1
  match interval.contains below, interval.contains above with
  | true, true =>
    let down := interval.value - below * interval.denominator
    let up := above * interval.denominator - interval.value
    if down < up then some below
    else if up < down then some above
    else if below % 2 = 0 then some below
    else some above
  | true, false => some below
  | false, true => some above
  | false, false => none

end RoundingInterval

/-- The number `digits * 10 ^ exponent`. -/
structure Decimal where
  /-- The significant digits. -/
  digits : Nat
  /-- The power of ten of the last digit. -/
  exponent : Int
  deriving DecidableEq, Repr, Inhabited

namespace Decimal

/-- The shortest decimal in the interval of a floating-point number. The grids from
`10 ^ 309` down to `10 ^ -343` are fine enough for every number. -/
def shortest (interval : RoundingInterval) : Decimal :=
  let onGrid (i : Nat) : Option Decimal :=
    let k : Int := 309 - (i : Int)
    (interval.inUnits k).nearest?.map fun digits => ⟨digits, k⟩
  ((List.range 653).findSome? onGrid).getD ⟨0, 0⟩

/-- How a decimal is laid out. -/
structure Layout where
  /-- The least power of ten of a first digit that is written positionally. -/
  least : Int
  /-- The greatest power of ten of a first digit that is written positionally. -/
  greatest : Int
  deriving DecidableEq, Repr

/-- The text of a decimal. Positional text always has a digit on both sides of the point;
text with an exponent has a point only between digits, and always a sign in the
exponent. -/
def toText (layout : Layout) (decimal : Decimal) : String :=
  let digits := (Nat.toDigits 10 decimal.digits)
  let count : Int := digits.length
  let first := decimal.exponent + count - 1
  let text :=
    if layout.least ≤ first ∧ first ≤ layout.greatest then
      if 0 ≤ decimal.exponent then
        digits ++ List.replicate decimal.exponent.toNat '0' ++ ['.', '0']
      else if 0 ≤ first then
        digits.take (first + 1).toNat ++ '.' :: digits.drop (first + 1).toNat
      else '0' :: '.' :: (List.replicate (-first - 1).toNat '0' ++ digits)
    else
      let fraction := if digits.length = 1 then [] else '.' :: digits.drop 1
      let sign := if first < 0 then '-' else '+'
      digits.take 1 ++ fraction ++ 'e' :: sign :: Nat.toDigits 10 first.natAbs
  String.ofList text

/-- The text of a finite floating-point number: a sign, unless it is positive, and zero or
the shortest decimal. -/
def ofFloat (layout : Layout) (x : Float) : String :=
  let bits := x.toBits.toNat
  let exponent := bits / hiddenBit % 0x800
  let fraction := bits % hiddenBit
  let sign := if bits < 0x8000000000000000 then "" else "-"
  if exponent = 0 ∧ fraction = 0 then sign ++ "0.0"
  else sign ++ (shortest (.ofFields exponent fraction)).toText layout

end Decimal

end InferenceConfig
