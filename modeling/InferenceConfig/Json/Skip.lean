import InferenceConfig.Json.Number
import InferenceConfig.Json.StringLiteral

/-!
# Skipping JSON Values

The value of an unknown member is skipped. It must be well formed, but it may be nested to
any depth, so the brackets that are still open are kept in a list, innermost first.

## Main definitions

* `Json.Bracket` — the two sorts of brackets;
* `Json.skipScalar` — what follows a value without brackets;
* `Json.skipNested` — what follows the end of all open brackets;
* `Json.skipValue` — what follows a value.
-/

namespace InferenceConfig

namespace Json

/-- The brackets of arrays and objects. -/
inductive Bracket where
  /-- The brackets of an array. -/
  | array
  /-- The brackets of an object. -/
  | object
  deriving DecidableEq, Repr

namespace Bracket

/-- The bracket that the byte opens. -/
def ofOpening? (byte : UInt8) : Option Bracket :=
  if byte = 0x5B then some .array else if byte = 0x7B then some .object else none

/-- The byte that closes the bracket. -/
def closing : Bracket → UInt8
  | .array => 0x5D
  | .object => 0x7D

/-- What is wrong when the input ends inside the bracket. -/
def eof : Bracket → Reason
  | .array => .eofList
  | .object => .eofObject

/-- What is wrong when an element is followed by neither a comma nor the end. -/
def expectedEnd : Bracket → Reason
  | .array => .expectedListEnd
  | .object => .expectedObjectEnd

end Bracket

/-- What follows a literal, a number or a string. -/
def skipScalar : (bytes : List UInt8) → Except Failure (List UInt8)
  | [] => .error (peeked .eofValue [])
  | byte :: rest =>
    if byte = 0x6E then readLiteral nullLetters rest
    else if byte = 0x74 then readLiteral trueLetters rest
    else if byte = 0x66 then readLiteral falseLetters rest
    else if byte = 0x22 then skipString rest
    else if byte = 0x2D ∨ isDigit byte then skipNumber (byte :: rest)
    else .error (peeked .expectedValue (byte :: rest))

/-- What follows the key of a member and its colon. -/
def skipKey (bytes : List UInt8) : Except Failure (List UInt8) :=
  match skipSpace bytes with
  | [] => .error (peeked .eofObject [])
  | byte :: rest =>
    if byte = 0x22 then
      match skipString rest with
      | .error failure => .error failure
      | .ok rest => readColon rest
    else .error (peeked .keyNotString (byte :: rest))

/-- What follows everything that comes before the value of an element in the bracket. -/
def skipToValue : (bracket : Bracket) → (bytes : List UInt8) → Except Failure (List UInt8)
  | .array, bytes => .ok bytes
  | .object, bytes => skipKey bytes

/-- A value that is not nested has a byte at least. -/
theorem length_of_skipScalar {bytes rest : List UInt8}
    (h : skipScalar bytes = .ok rest) : rest.length < bytes.length := by
  unfold skipScalar at h
  split at h
  · simp at h
  · split at h
    · exact Nat.lt_succ_of_le (length_of_readLiteral h)
    · split at h
      · exact Nat.lt_succ_of_le (length_of_readLiteral h)
      · split at h
        · exact Nat.lt_succ_of_le (length_of_readLiteral h)
        · split at h
          · exact Nat.lt_succ_of_lt (length_of_skipString h)
          · split at h
            · exact length_of_skipNumber h
            · simp at h

/-- A key has its quotes at least. -/
theorem length_of_skipKey {bytes rest : List UInt8}
    (h : skipKey bytes = .ok rest) : rest.length < bytes.length := by
  simp only [skipKey] at h
  split at h
  · simp at h
  · next heq =>
    have := length_of_skipSpace heq
    split at h
    · split at h
      · simp at h
      · next hstring =>
        have := length_of_skipString hstring
        have := length_of_readColon h
        omega
    · simp at h

/-- On the way to a value, no bytes are added. -/
theorem length_of_skipToValue {bracket : Bracket} {bytes rest : List UInt8}
    (h : skipToValue bracket bytes = .ok rest) : rest.length ≤ bytes.length := by
  cases bracket with
  | array =>
    simp only [skipToValue, Except.ok.injEq] at h
    simp [h]
  | object => exact Nat.le_of_lt (length_of_skipKey h)

/-- What is due next while values are skipped. -/
inductive Due where
  /-- A value. -/
  | value
  /-- A comma or the end of the innermost bracket; nothing, if no bracket is open. -/
  | separator
  deriving DecidableEq, Repr

/-- What follows the end of the value that is due, if any, and of all open `brackets`,
the innermost first. -/
def skipNested (due : Due) (brackets : List Bracket) (bytes : List UInt8) :
    Except Failure (List UInt8) :=
  match due with
  | .value =>
    match _hs : skipSpace bytes with
    | [] => .error (peeked .eofValue [])
    | byte :: rest =>
      match Bracket.ofOpening? byte with
      | none =>
        match _hv : skipScalar (byte :: rest) with
        | .error failure => .error failure
        | .ok rest => skipNested .separator brackets rest
      | some bracket =>
        match _ho : skipSpace rest with
        | [] => .error (peeked bracket.eof [])
        | next :: inner =>
          if next = bracket.closing then skipNested .separator brackets inner
          else
            match _hv : skipToValue bracket (next :: inner) with
            | .error failure => .error failure
            | .ok rest => skipNested .value (bracket :: brackets) rest
  | .separator =>
    match brackets with
    | [] => .ok bytes
    | bracket :: outer =>
      match _hs : skipSpace bytes with
      | [] => .error (peeked bracket.eof [])
      | byte :: rest =>
        if byte = 0x2C then
          match _hv : skipToValue bracket rest with
          | .error failure => .error failure
          | .ok rest => skipNested .value (bracket :: outer) rest
        else if byte = bracket.closing then skipNested .separator outer rest
        else .error (peeked bracket.expectedEnd (byte :: rest))
termination_by bytes.length
decreasing_by
  · have := length_of_skipSpace _hs
    have := length_of_skipScalar _hv
    simp only [List.length_cons] at this
    omega
  · have := length_of_skipSpace _hs
    have := length_of_skipSpace _ho
    omega
  · have := length_of_skipSpace _hs
    have := length_of_skipSpace _ho
    have := length_of_skipToValue _hv
    simp only [List.length_cons] at this
    omega
  · have := length_of_skipSpace _hs
    have := length_of_skipToValue _hv
    omega
  · exact length_of_skipSpace _hs

/-- What follows the value at the start of the bytes. -/
def skipValue (bytes : List UInt8) : Except Failure (List UInt8) :=
  skipNested .value [] bytes

/-- Skipping nested values leaves no more bytes. Induction on the run of the skipper. -/
theorem length_of_skipNested {due : Due} {brackets : List Bracket}
    {bytes rest : List UInt8} (h : skipNested due brackets bytes = .ok rest) :
    rest.length ≤ bytes.length := by
  fun_induction skipNested due brackets bytes with
  | case1 => simp at h
  | case2 => simp at h
  | case3 _ _ _ rest' hs _ rest'' hv ih =>
    have := ih h
    have := length_of_skipSpace hs
    have := length_of_skipScalar hv
    simp only [List.length_cons] at this
    omega
  | case4 => simp at h
  | case5 _ _ _ rest' hs _ _ inner ho ih =>
    have := ih h
    have := length_of_skipSpace hs
    have := length_of_skipSpace ho
    omega
  | case6 => simp at h
  | case7 _ _ _ rest' hs _ _ next inner ho _ rest'' hv ih =>
    have := ih h
    have := length_of_skipSpace hs
    have := length_of_skipSpace ho
    have := length_of_skipToValue hv
    simp only [List.length_cons] at this
    omega
  | case8 =>
    simp only [Except.ok.injEq] at h
    simp [h]
  | case9 => simp at h
  | case10 => simp at h
  | case11 _ _ _ rest' rest'' hv hs ih =>
    have := ih h
    have := length_of_skipSpace hs
    have := length_of_skipToValue hv
    omega
  | case12 _ _ _ _ hs _ ih =>
    have := ih h
    have := length_of_skipSpace hs
    omega
  | case13 => simp at h

/-- Skipping a value leaves no more bytes. -/
theorem length_of_skipValue {bytes rest : List UInt8}
    (h : skipValue bytes = .ok rest) : rest.length ≤ bytes.length :=
  length_of_skipNested h

end Json

end InferenceConfig
