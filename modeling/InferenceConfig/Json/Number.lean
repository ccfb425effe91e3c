import InferenceConfig.Decimal.Shortest
import InferenceConfig.Json.Scan

/-!
# JSON Numbers

No field of a message is a number, so a number is only read to be shown in a message about
its type. Integers of up to 64 bits are exact. All other numbers, and minus zero, are
floating-point numbers: as many leading digits as fit 64 bits, scaled by a power of ten.
Later digits only count as zeros, and a number that is too large is an error.

## Main definitions

* `Json.scale?` — a significand times a power of ten;
* `Json.readNumber` — the shape of the number at the start of the bytes;
* `Json.skipNumber` — what follows the number, whatever its size.
-/

namespace InferenceConfig

namespace Json

/-- Floating-point numbers are written positionally from `1e-5` up to below `1e16`. -/
def numberLayout : Decimal.Layout := ⟨-5, 15⟩

/-- The floating-point number `10 ^ e`, for `e` up to 308. -/
def powerOfTen (e : Nat) : Float :=
  Float.ofScientific 1 false e

/-- `x` divided by `10 ^ e`, in steps of at most `10 ^ 308`. -/
def scaleDown (x : Float) (e : Nat) : Float :=
  if e ≤ 308 then x / powerOfTen e
  else if x == 0 then x
  else scaleDown (x / powerOfTen 308) (e - 308)
termination_by e
decreasing_by omega

/-- The floating-point number nearest to the significand, times `10 ^ exponent`, unless that
is too large. -/
def scale? (significand : Nat) (exponent : Int) : Option Float :=
  let x := significand.toUInt64.toFloat
  if exponent < 0 then some (scaleDown x exponent.natAbs)
  else if exponent ≤ 308 then
    let y := x * powerOfTen exponent.toNat
    if y.isInf then none else some y
  else if x == 0 then some x
  else none

/-- The shape of a floating-point number with the given sign and absolute value. -/
def floatShape (negative : Bool) (x : Float) : Shape :=
  .floating (Decimal.ofFloat numberLayout (if negative then -x else x))

/-- The value of a decimal digit. -/
def digitValue (byte : UInt8) : Nat :=
  byte.toNat - 0x30

/-- A significand has at most 64 bits. -/
def significandBound : Nat := 0x10000000000000000

/-- Appends digits to a significand while it stays below its bound. Gives the significand,
the number of digits appended, and what follows them, which is another digit only if there
was no room for it. -/
def readDigits (significand : Nat) : (bytes : List UInt8) → Nat × Nat × List UInt8
  | [] => (significand, 0, [])
  | byte :: rest =>
    if isDigit byte && decide (significand * 10 + digitValue byte < significandBound) then
      let (longer, count, rest) := readDigits (significand * 10 + digitValue byte) rest
      (longer, count + 1, rest)
    else (significand, 0, byte :: rest)

/-- The digits of an exponent: its value, or nothing from the first digit on that makes it
exceed 31 bits, and what follows. -/
def readExponentDigits (value : Nat) : (bytes : List UInt8) → Option Nat × List UInt8
  | [] => (some value, [])
  | byte :: rest =>
    if isDigit byte then
      let longer := value * 10 + digitValue byte
      if longer < 0x80000000 then readExponentDigits longer rest else (none, rest)
    else (some value, byte :: rest)

/-- The shape of a scaled significand, when `bytes` follow the number. -/
def finish (negative : Bool) (significand : Nat) (exponent : Int) (bytes : List UInt8) :
    Read Shape :=
  match scale? significand exponent with
  | none => .error (here .numberOutOfRange bytes)
  | some x => .ok (floatShape negative x, bytes)

/-- The sign of an exponent: whether it is a minus, and what follows it. -/
def readSign : (bytes : List UInt8) → Bool × List UInt8
  | [] => (false, [])
  | byte :: rest =>
    if byte = 0x2D then (true, rest)
    else if byte = 0x2B then (false, rest)
    else (false, byte :: rest)

/-- Reads what follows the letter of an exponent. -/
def readExponent (negative : Bool) (significand : Nat) (exponent : Int)
    (bytes : List UInt8) : Read Shape :=
  match readSign bytes with
  | (_, []) => .error (here .eofValue [])
  | (down, byte :: rest) =>
    if isDigit byte then
      match readExponentDigits (digitValue byte) rest with
      | (some e, rest) =>
        finish negative significand (if down then exponent - e else exponent + e) rest
      | (none, rest) =>
        if significand ≠ 0 ∧ down = false then .error (here .numberOutOfRange rest)
        else .ok (floatShape negative 0, skipDigits rest)
    else .error (here .invalidNumber rest)

/-- Reads an exponent if there is one, and finishes the number. -/
def readScaled (negative : Bool) (significand : Nat) (exponent : Int) :
    (bytes : List UInt8) → Read Shape
  | [] => finish negative significand exponent []
  | byte :: rest =>
    if byte = 0x65 ∨ byte = 0x45 then readExponent negative significand exponent rest
    else finish negative significand exponent (byte :: rest)

/-- Reads what follows a decimal point. Digits without room in the significand are passed
over; otherwise at least one digit is due. -/
def readFraction (negative : Bool) (significand : Nat) (exponent : Int)
    (bytes : List UInt8) : Read Shape :=
  match readDigits significand bytes with
  | (longer, count, rest) =>
    if startsWithDigit rest then
      readScaled negative longer (exponent - count) (skipDigits rest)
    else if count = 0 then
      if rest.isEmpty then .error (peeked .eofValue rest)
      else .error (peeked .invalidNumber rest)
    else readScaled negative longer (exponent - count) rest

/-- Reads what follows the digits before the point, of which the last `dropped` had no room
in the significand. -/
def readAfterInteger (negative : Bool) (significand dropped : Nat)
    (bytes : List UInt8) : Read Shape :=
  let whole : Read Shape :=
    if dropped ≠ 0 then finish negative significand dropped bytes
    else if negative = false then .ok (.integer significand, bytes)
    else if significand ≠ 0 ∧ significand ≤ 0x8000000000000000 then
      .ok (.integer (-significand), bytes)
    else .ok (floatShape true significand.toUInt64.toFloat, bytes)
  match bytes with
  | [] => whole
  | byte :: rest =>
    if byte = 0x2E then readFraction negative significand dropped rest
    else if byte = 0x65 ∨ byte = 0x45 then
      readExponent negative significand dropped rest
    else whole

/-- Reads a number behind its sign. A leading zero stands alone. -/
def readUnsigned (negative : Bool) : (bytes : List UInt8) → Read Shape
  | [] => .error (here .eofValue [])
  | byte :: rest =>
    if byte = 0x30 then
      if startsWithDigit rest then .error (peeked .invalidNumber rest)
      else readAfterInteger negative 0 0 rest
    else if isDigit byte then
      match readDigits (digitValue byte) rest with
      | (significand, _, rest) =>
        let dropped := rest.length - (skipDigits rest).length
        readAfterInteger negative significand dropped (skipDigits rest)
    else .error (here .invalidNumber rest)

/-- Reads the number that the bytes start with. -/
def readNumber : (bytes : List UInt8) → Read Shape
  | [] => .error (here .eofValue [])
  | byte :: rest =>
    if byte = 0x2D then readUnsigned true rest else readUnsigned false (byte :: rest)

/-- What follows an exponent, behind its letter. -/
def skipExponent (bytes : List UInt8) : Except Failure (List UInt8) :=
  match readSign bytes with
  | (_, []) => .error (here .invalidNumber [])
  | (_, byte :: rest) =>
    if isDigit byte then .ok (skipDigits rest) else .error (here .invalidNumber rest)

/-- What follows an exponent, if there is one. -/
def skipScaled : (bytes : List UInt8) → Except Failure (List UInt8)
  | [] => .ok []
  | byte :: rest =>
    if byte = 0x65 ∨ byte = 0x45 then skipExponent rest else .ok (byte :: rest)

/-- What follows the digits before the point. -/
def skipAfterInteger : (bytes : List UInt8) → Except Failure (List UInt8)
  | [] => .ok []
  | byte :: rest =>
    if byte = 0x2E then
      if startsWithDigit rest then skipScaled (skipDigits rest)
      else .error (peeked .invalidNumber rest)
    else skipScaled (byte :: rest)

/-- What follows a number that is not kept, behind its sign. Its size does not matter. -/
def skipUnsigned : (bytes : List UInt8) → Except Failure (List UInt8)
  | [] => .error (here .invalidNumber [])
  | byte :: rest =>
    if byte = 0x30 then
      if startsWithDigit rest then .error (peeked .invalidNumber rest)
      else skipAfterInteger rest
    else if isDigit byte then skipAfterInteger (skipDigits rest)
    else .error (here .invalidNumber rest)

/-- What follows the number that the bytes start with. -/
def skipNumber : (bytes : List UInt8) → Except Failure (List UInt8)
  | [] => .error (here .invalidNumber [])
  | byte :: rest =>
    if byte = 0x2D then skipUnsigned rest else skipUnsigned (byte :: rest)

/-- Skipping digits leaves no more bytes. -/
theorem length_skipDigits_le (bytes : List UInt8) :
    (skipDigits bytes).length ≤ bytes.length :=
  length_dropWhile_le _ _

/-- Reading a sign leaves no more bytes. -/
theorem length_readSign_le (bytes : List UInt8) :
    (readSign bytes).2.length ≤ bytes.length := by
  unfold readSign
  split
  · simp
  · split
    · simp
    · split <;> simp

/-- Skipping an exponent leaves no more bytes. -/
theorem length_of_skipExponent {bytes rest : List UInt8}
    (h : skipExponent bytes = .ok rest) : rest.length ≤ bytes.length := by
  have hsign := length_readSign_le bytes
  simp only [skipExponent] at h
  split at h
  · simp at h
  · next heq =>
    rw [heq] at hsign
    split at h
    · simp only [Except.ok.injEq] at h
      subst h
      exact Nat.le_trans (length_skipDigits_le _) (Nat.le_of_succ_le hsign)
    · simp at h

/-- Skipping a fraction and an exponent leaves no more bytes. -/
theorem length_of_skipScaled {bytes rest : List UInt8}
    (h : skipScaled bytes = .ok rest) : rest.length ≤ bytes.length := by
  unfold skipScaled at h
  split at h
  · simp only [Except.ok.injEq] at h
    simp [← h]
  · split at h
    · exact Nat.le_succ_of_le (length_of_skipExponent h)
    · simp only [Except.ok.injEq] at h
      simp [← h]

/-- Skipping what follows the digits before the point leaves no more bytes. -/
theorem length_of_skipAfterInteger {bytes rest : List UInt8}
    (h : skipAfterInteger bytes = .ok rest) : rest.length ≤ bytes.length := by
  unfold skipAfterInteger at h
  split at h
  · simp only [Except.ok.injEq] at h
    simp [← h]
  · split at h
    · split at h
      · exact Nat.le_succ_of_le
          (Nat.le_trans (length_of_skipScaled h) (length_skipDigits_le _))
      · simp at h
    · exact length_of_skipScaled h

/-- A number has a digit at least, so skipping it leaves fewer bytes. -/
theorem length_of_skipUnsigned {bytes rest : List UInt8}
    (h : skipUnsigned bytes = .ok rest) : rest.length < bytes.length := by
  unfold skipUnsigned at h
  split at h
  · simp at h
  · split at h
    · split at h
      · simp at h
      · exact Nat.lt_succ_of_le (length_of_skipAfterInteger h)
    · split at h
      · exact Nat.lt_succ_of_le
          (Nat.le_trans (length_of_skipAfterInteger h) (length_skipDigits_le _))
      · simp at h

/-- A number takes at least one byte. -/
theorem length_of_skipNumber {bytes rest : List UInt8}
    (h : skipNumber bytes = .ok rest) : rest.length < bytes.length := by
  unfold skipNumber at h
  split at h
  · simp at h
  · split at h
    · exact Nat.lt_succ_of_lt (length_of_skipUnsigned h)
    · exact length_of_skipUnsigned h

end Json

end InferenceConfig
