import InferenceConfig.Json.Failure

/-!
# Scanning JSON

The small steps that reading and skipping share: white space, digits, the rest of a
literal, the four digits of a hexadecimal escape, and the colon of a member.

## Main definitions

* `Json.skipSpace` — what follows the white space;
* `Json.isDigit`, `Json.skipDigits` — decimal digits;
* `Json.readLiteral` — the letters of a literal;
* `Json.readHex` — four hexadecimal digits;
* `Json.readColon` — the colon behind a key.
-/

namespace InferenceConfig

namespace Json

/-- White space: space, line feed, carriage return and tab. -/
def isSpace (byte : UInt8) : Bool :=
  byte == 0x20 || byte == 0x0A || byte == 0x0D || byte == 0x09

/-- What follows the white space at the start of the bytes. -/
def skipSpace (bytes : List UInt8) : List UInt8 :=
  bytes.dropWhile isSpace

/-- Whether the byte is a decimal digit. -/
def isDigit (byte : UInt8) : Bool :=
  0x30 ≤ byte && byte ≤ 0x39

/-- What follows the decimal digits at the start of the bytes. -/
def skipDigits (bytes : List UInt8) : List UInt8 :=
  bytes.dropWhile isDigit

/-- Whether the next byte is a decimal digit. -/
def startsWithDigit : List UInt8 → Bool
  | [] => false
  | byte :: _ => isDigit byte

/-- Reads the letters of a literal one by one. A wrong letter counts as consumed. -/
def readLiteral : (letters bytes : List UInt8) → Except Failure (List UInt8)
  | [], bytes => .ok bytes
  | _ :: _, [] => .error (here .eofValue [])
  | letter :: letters, byte :: bytes =>
    if byte = letter then readLiteral letters bytes
    else .error (here .expectedIdent bytes)

/-- The letters of `null` behind its first one. -/
def nullLetters : List UInt8 := [0x75, 0x6C, 0x6C]

/-- The letters of `true` behind its first one. -/
def trueLetters : List UInt8 := [0x72, 0x75, 0x65]

/-- The letters of `false` behind its first one. -/
def falseLetters : List UInt8 := [0x61, 0x6C, 0x73, 0x65]

/-- The value of a hexadecimal digit in either case. -/
def hexValue? (byte : UInt8) : Option Nat :=
  let n := byte.toNat
  if 0x30 ≤ n ∧ n ≤ 0x39 then some (n - 0x30)
  else if 0x41 ≤ n ∧ n ≤ 0x46 then some (n - 0x41 + 10)
  else if 0x61 ≤ n ∧ n ≤ 0x66 then some (n - 0x61 + 10)
  else none

/-- Reads four hexadecimal digits. All four bytes are consumed before they are looked at,
and with fewer than four the string does not end. -/
def readHex : (bytes : List UInt8) → Read Nat
  | a :: b :: c :: d :: rest =>
    match hexValue? a, hexValue? b, hexValue? c, hexValue? d with
    | some a, some b, some c, some d => .ok (((a * 16 + b) * 16 + c) * 16 + d, rest)
    | _, _, _, _ => .error (here .invalidEscape rest)
  | _ => .error (here .eofString [])

/-- Reads the colon behind a key, with white space before it. -/
def readColon (bytes : List UInt8) : Except Failure (List UInt8) :=
  match skipSpace bytes with
  | [] => .error (peeked .eofObject [])
  | byte :: rest =>
    if byte = 0x3A then .ok rest else .error (peeked .expectedColon (byte :: rest))

/-- Dropping bytes at the start leaves no more bytes. -/
theorem length_dropWhile_le (p : UInt8 → Bool) (bytes : List UInt8) :
    (bytes.dropWhile p).length ≤ bytes.length := by
  induction bytes with
  | nil => simp
  | cons byte bytes ih =>
    rw [List.dropWhile_cons]
    split
    · exact Nat.le_succ_of_le ih
    · exact Nat.le_refl _

/-- Skipping white space leaves no more bytes. -/
theorem length_skipSpace_le (bytes : List UInt8) :
    (skipSpace bytes).length ≤ bytes.length :=
  length_dropWhile_le _ _

/-- Behind the first byte that is no white space, there are fewer bytes. -/
theorem length_of_skipSpace {byte : UInt8} {bytes rest : List UInt8}
    (h : skipSpace bytes = byte :: rest) : rest.length < bytes.length := by
  have := length_skipSpace_le bytes
  rw [h] at this
  exact this

/-- Reading a literal leaves no more bytes. -/
theorem length_of_readLiteral {letters bytes rest : List UInt8}
    (h : readLiteral letters bytes = .ok rest) : rest.length ≤ bytes.length := by
  induction letters generalizing bytes with
  | nil =>
    simp only [readLiteral, Except.ok.injEq] at h
    simp [h]
  | cons letter letters ih =>
    cases bytes with
    | nil => simp [readLiteral] at h
    | cons byte bytes =>
      simp only [readLiteral] at h
      split at h
      · exact Nat.le_succ_of_le (ih h)
      · simp at h

/-- Reading four digits leaves fewer bytes. -/
theorem length_of_readHex {n : Nat} {bytes rest : List UInt8}
    (h : readHex bytes = .ok (n, rest)) : rest.length < bytes.length := by
  unfold readHex at h
  split at h
  · split at h
    · simp only [Except.ok.injEq, Prod.mk.injEq] at h
      simp only [List.length_cons, ← h.2]
      omega
    · simp at h
  · simp at h

/-- Reading a colon leaves fewer bytes. -/
theorem length_of_readColon {bytes rest : List UInt8}
    (h : readColon bytes = .ok rest) : rest.length < bytes.length := by
  simp only [readColon] at h
  split at h
  · simp at h
  · next heq =>
    split at h
    · simp only [Except.ok.injEq] at h
      exact h ▸ length_of_skipSpace heq
    · simp at h

end Json

end InferenceConfig
