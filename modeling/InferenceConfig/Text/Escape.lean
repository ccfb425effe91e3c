/-!
# Escapes in the Text Form

A value in the text form stands between quotes. Writing escapes five characters; reading
accepts six escapes, because a single quote may be escaped as well.

## Main definitions

* `Escape.encode` — the body that is written for a value;
* `Escape.decode` — the value of a body, or the first escape that is not supported.

## Main statements

* `Escape.decode_encode` — reading gives back what was written.
-/

namespace InferenceConfig

namespace Escape

/-- How one character of a value is written. -/
def encodeChar (c : Char) : List Char :=
  if c = '\\' then ['\\', '\\']
  else if c = '\x22' then ['\\', '\x22']
  else if c = '\n' then ['\\', 'n']
  else if c = '\r' then ['\\', 'r']
  else if c = '\t' then ['\\', 't']
  else [c]

/-- The body that is written for a value. -/
def encode (value : List Char) : List Char :=
  value.flatMap encodeChar

/-- What can be wrong with the escapes of a body. -/
inductive Fault where
  /-- No escape consists of a backslash and this character. -/
  | unsupported (c : Char)
  /-- The body ends with a backslash that escapes nothing. -/
  | dangling
  deriving DecidableEq, Repr

/-- The wording of a fault. -/
def Fault.message : Fault → String
  | .unsupported c => "unsupported escape \\" ++ String.singleton c
  | .dangling => "dangling backslash"

/-- The character that a backslash and `c` stand for. -/
def decodeChar? (c : Char) : Option Char :=
  if c = '\\' then some '\\'
  else if c = '\x22' then some '\x22'
  else if c = '\x27' then some '\x27'
  else if c = 'n' then some '\n'
  else if c = 'r' then some '\r'
  else if c = 't' then some '\t'
  else none

/-- The value of a body, or its first fault. -/
def decode : (body : List Char) → Except Fault (List Char)
  | [] => .ok []
  | c :: rest =>
    if c = '\\' then
      match rest with
      | [] => .error .dangling
      | escaped :: rest =>
        match decodeChar? escaped with
        | none => .error (.unsupported escaped)
        | some c =>
          match decode rest with
          | .error fault => .error fault
          | .ok value => .ok (c :: value)
    else
      match decode rest with
      | .error fault => .error fault
      | .ok value => .ok (c :: value)

/-- The body that is written for a value is read as that value. -/
theorem decode_encode (value : List Char) : decode (encode value) = .ok value := by
  induction value with
  | nil => rfl
  | cons c value ih =>
    rw [encode] at ih
    rw [encode, List.flatMap_cons]
    by_cases backslash : c = '\\'
    · subst backslash; simp [encodeChar, decode, decodeChar?, ih]
    by_cases quote : c = '\x22'
    · subst quote; simp [encodeChar, decode, decodeChar?, ih]
    by_cases feed : c = '\n'
    · subst feed; simp [encodeChar, decode, decodeChar?, ih]
    by_cases carriage : c = '\r'
    · subst carriage; simp [encodeChar, decode, decodeChar?, ih]
    by_cases tab : c = '\t'
    · subst tab; simp [encodeChar, decode, decodeChar?, ih]
    have single : encodeChar c = [c] := by simp [encodeChar, *]
    rw [single, List.singleton_append]
    unfold decode
    rw [if_neg backslash, ih]

end Escape

end InferenceConfig
