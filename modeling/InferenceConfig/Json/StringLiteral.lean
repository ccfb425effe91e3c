import InferenceConfig.Json.Scan
import InferenceConfig.Unicode.Utf8

/-!
# JSON Strings

A string is read in one of two ways. A key or value that is kept is decoded: its escapes are
replaced, surrogates must come in pairs, and the bytes must be UTF-8. A string inside a
value that is skipped only has to end, with escapes of the right form.

Both start behind the opening quote and end behind the closing one.

## Main definitions

* `Json.readEscape` — the bytes that an escape stands for;
* `Json.readString` — a string that is kept;
* `Json.skipString` — a string that is skipped.
-/

namespace InferenceConfig

namespace Json

/-- The byte that a backslash and `byte` stand for, except for hexadecimal escapes. -/
def shortEscape? (byte : UInt8) : Option UInt8 :=
  if byte = 0x22 then some 0x22
  else if byte = 0x5C then some 0x5C
  else if byte = 0x2F then some 0x2F
  else if byte = 0x62 then some 0x08
  else if byte = 0x66 then some 0x0C
  else if byte = 0x6E then some 0x0A
  else if byte = 0x72 then some 0x0D
  else if byte = 0x74 then some 0x09
  else none

/-- Whether the value is a leading surrogate. -/
def isLeadingSurrogate (n : Nat) : Bool :=
  0xD800 ≤ n && n ≤ 0xDBFF

/-- Whether the value is a trailing surrogate. -/
def isTrailingSurrogate (n : Nat) : Bool :=
  0xDC00 ≤ n && n ≤ 0xDFFF

/-- Reads the escape that must follow the leading surrogate `leading`. -/
def readTrailing (leading : Nat) : (bytes : List UInt8) → Read (List UInt8)
  | [] => .error (here .eofString [])
  | [byte] =>
    if byte = 0x5C then .error (here .eofString [])
    else .error (here .unexpectedEndOfEscape [])
  | byte :: letter :: rest =>
    if byte ≠ 0x5C then .error (here .unexpectedEndOfEscape (letter :: rest))
    else if letter ≠ 0x75 then .error (here .unexpectedEndOfEscape rest)
    else
      match readHex rest with
      | .error failure => .error failure
      | .ok (trailing, rest) =>
        if isTrailingSurrogate trailing then
          let code := 0x10000 + (leading - 0xD800) * 0x400 + (trailing - 0xDC00)
          .ok (Utf8.encodeChar (Char.ofNat code), rest)
        else .error (here .loneSurrogate rest)

/-- Reads what follows a backslash and a `u`: four digits, or two escapes that make up a
pair of surrogates. -/
def readCodePoint (bytes : List UInt8) : Read (List UInt8) :=
  match readHex bytes with
  | .error failure => .error failure
  | .ok (n, rest) =>
    if isTrailingSurrogate n then .error (here .loneSurrogate rest)
    else if isLeadingSurrogate n then readTrailing n rest
    else .ok (Utf8.encodeChar (Char.ofNat n), rest)

/-- Reads what follows a backslash, and gives the bytes that the escape stands for. -/
def readEscape : (bytes : List UInt8) → Read (List UInt8)
  | [] => .error (here .eofString [])
  | letter :: rest =>
    if letter = 0x75 then readCodePoint rest
    else
      match shortEscape? letter with
      | some byte => .ok ([byte], rest)
      | none => .error (here .invalidEscape rest)

/-- What follows an escape of the right form, behind its backslash. -/
def skipEscape : (bytes : List UInt8) → Except Failure (List UInt8)
  | [] => .error (here .eofString [])
  | letter :: rest =>
    if letter = 0x75 then
      match readHex rest with
      | .error failure => .error failure
      | .ok (_, rest) => .ok rest
    else if (shortEscape? letter).isSome then .ok rest
    else .error (here .invalidEscape rest)

/-- Reading the second half of a pair leaves no more bytes. -/
theorem length_of_readTrailing {leading : Nat} {bytes content rest : List UInt8}
    (h : readTrailing leading bytes = .ok (content, rest)) :
    rest.length ≤ bytes.length := by
  unfold readTrailing at h
  split at h
  · simp at h
  · split at h <;> simp at h
  · split at h
    · simp at h
    · split at h
      · simp at h
      · split at h
        · simp at h
        · next heq =>
          split at h
          · simp only [Except.ok.injEq, Prod.mk.injEq] at h
            have := length_of_readHex heq
            simp only [List.length_cons, ← h.2]
            omega
          · simp at h

/-- Reading an escape leaves no more bytes. -/
theorem length_of_readEscape {bytes content rest : List UInt8}
    (h : readEscape bytes = .ok (content, rest)) : rest.length ≤ bytes.length := by
  unfold readEscape at h
  split at h
  · simp at h
  · split at h
    · simp only [readCodePoint] at h
      split at h
      · simp at h
      · next heq =>
        have := length_of_readHex heq
        split at h
        · simp at h
        · split at h
          · have := length_of_readTrailing h
            simp only [List.length_cons]
            omega
          · simp only [Except.ok.injEq, Prod.mk.injEq] at h
            simp only [List.length_cons, ← h.2]
            omega
    · split at h
      · simp only [Except.ok.injEq, Prod.mk.injEq] at h
        simp only [List.length_cons, ← h.2]
        omega
      · simp at h

/-- Skipping an escape leaves no more bytes. -/
theorem length_of_skipEscape {bytes rest : List UInt8}
    (h : skipEscape bytes = .ok rest) : rest.length ≤ bytes.length := by
  unfold skipEscape at h
  split at h
  · simp at h
  · split at h
    · split at h
      · simp at h
      · next heq =>
        have := length_of_readHex heq
        simp only [Except.ok.injEq] at h
        simp only [List.length_cons, ← h]
        omega
    · split at h
      · simp only [Except.ok.injEq] at h
        simp only [List.length_cons, ← h]
        omega
      · simp at h

/-- Reads a string up to its closing quote, and gives the bytes that it stands for. A raw
control character counts as consumed. -/
def readContent (bytes : List UInt8) : Read (List UInt8) :=
  match bytes with
  | [] => .error (here .eofString [])
  | byte :: rest =>
    if byte = 0x22 then .ok ([], rest)
    else if byte = 0x5C then
      match _h : readEscape rest with
      | .error failure => .error failure
      | .ok (escaped, rest) =>
        match readContent rest with
        | .error failure => .error failure
        | .ok (content, rest) => .ok (escaped ++ content, rest)
    else if byte < 0x20 then .error (here .controlCharacter rest)
    else
      match readContent rest with
      | .error failure => .error failure
      | .ok (content, rest) => .ok (byte :: content, rest)
termination_by bytes.length
decreasing_by
  · exact Nat.lt_succ_of_le (length_of_readEscape _h)
  · exact Nat.lt_succ_self _

/-- Reads a string that is kept. Bytes that are not UTF-8 are reported before the closing
quote, by as many bytes as the string stands for from the first bad one on. -/
def readString (bytes : List UInt8) : Read String :=
  match readContent bytes with
  | .error failure => .error failure
  | .ok (content, rest) =>
    match Utf8.decode content with
    | .error fault =>
      .error ⟨.invalidCodePoint, rest.length + (content.length - fault.index)⟩
    | .ok text => .ok (String.ofList text, rest)

/-- What follows a string that is skipped. A raw control character does not count as
consumed. -/
def skipString (bytes : List UInt8) : Except Failure (List UInt8) :=
  match bytes with
  | [] => .error (here .eofString [])
  | byte :: rest =>
    if byte = 0x22 then .ok rest
    else if byte = 0x5C then
      match _h : skipEscape rest with
      | .error failure => .error failure
      | .ok rest => skipString rest
    else if byte < 0x20 then .error (here .controlCharacter (byte :: rest))
    else skipString rest
termination_by bytes.length
decreasing_by
  · exact Nat.lt_succ_of_le (length_of_skipEscape _h)
  · exact Nat.lt_succ_self _

/-- The closing quote is read with the content, so fewer bytes are left. -/
theorem length_of_readContent {bytes content rest : List UInt8}
    (h : readContent bytes = .ok (content, rest)) : rest.length < bytes.length := by
  fun_induction readContent bytes generalizing content rest with
  | case1 => simp at h
  | case2 =>
    simp only [Except.ok.injEq, Prod.mk.injEq] at h
    simp [h.2]
  | case3 => simp at h
  | case4 => simp at h
  | case5 rest' escaped rest'' hesc content' rest''' hcontent _ ih =>
    simp only [Except.ok.injEq, Prod.mk.injEq] at h
    have := ih hcontent
    have := length_of_readEscape hesc
    simp only [List.length_cons, ← h.2]
    omega
  | case6 => simp at h
  | case7 => simp at h
  | case8 byte rest' _ _ _ content' rest'' hcontent ih =>
    simp only [Except.ok.injEq, Prod.mk.injEq] at h
    have := ih hcontent
    simp only [List.length_cons, ← h.2]
    omega

/-- Behind a string, there are fewer bytes. -/
theorem length_of_readString {bytes rest : List UInt8} {value : String}
    (h : readString bytes = .ok (value, rest)) : rest.length < bytes.length := by
  simp only [readString] at h
  split at h
  · simp at h
  · next heq =>
    split at h
    · simp at h
    · simp only [Except.ok.injEq, Prod.mk.injEq] at h
      exact h.2 ▸ length_of_readContent heq

/-- The closing quote is skipped with the string, so fewer bytes are left. -/
theorem length_of_skipString {bytes rest : List UInt8}
    (h : skipString bytes = .ok rest) : rest.length < bytes.length := by
  fun_induction skipString bytes with
  | case1 => simp at h
  | case2 =>
    simp only [Except.ok.injEq] at h
    simp [h]
  | case3 => simp at h
  | case4 rest' rest'' hesc _ ih =>
    have := ih h
    have := length_of_skipEscape hesc
    simp only [List.length_cons]
    omega
  | case5 => simp at h
  | case6 byte rest' _ _ _ ih => exact Nat.lt_succ_of_lt (ih h)

end Json

end InferenceConfig
