import InferenceConfig.Json.Skip
import InferenceConfig.Message

/-!
# Reading Messages from JSON

A message is an object whose members are the lists of its fields: in any order, each at most
once, missing ones empty, and unknown ones skipped. It may also be an array that holds the
lists in the order of the field table, where the last ones may be missing. A list is an
array of strings. The bytes are read from left to right, and the first failure counts.

## Main definitions

* `Json.readShape`, `Json.mismatch` — a value of a wrong type;
* `Json.readStringValue`, `Json.readList` — strings and lists of strings;
* `Json.readMembers`, `Json.readElements` — the lists of an object and of an array;
* `Json.read` — the message of a whole document.
-/

namespace InferenceConfig

namespace Json

/-- Reads a value that has a wrong type. Brackets are left where they are. -/
def readShape : (bytes : List UInt8) → Read Shape
  | [] => .error (peeked .eofValue [])
  | byte :: rest =>
    let literal (letters : List UInt8) (shape : Shape) : Read Shape :=
      match readLiteral letters rest with
      | .error failure => .error failure
      | .ok rest => .ok (shape, rest)
    if byte = 0x6E then literal nullLetters .null
    else if byte = 0x74 then literal trueLetters (.boolean true)
    else if byte = 0x66 then literal falseLetters (.boolean false)
    else if byte = 0x2D ∨ isDigit byte then readNumber (byte :: rest)
    else if byte = 0x22 then
      match readString rest with
      | .error failure => .error failure
      | .ok (value, rest) => .ok (.string value, rest)
    else if byte = 0x5B then .ok (.sequence, byte :: rest)
    else if byte = 0x7B then .ok (.map, byte :: rest)
    else .error (peeked .expectedValue (byte :: rest))

/-- The failure of a value that is not what is wanted: its own, if it is malformed. -/
def mismatch (wanted : Wanted) (bytes : List UInt8) : Failure :=
  match readShape bytes with
  | .error failure => failure
  | .ok (shape, rest) => here (.invalidType shape wanted) rest

/-- Reads a string. -/
def readStringValue (bytes : List UInt8) : Read String :=
  match skipSpace bytes with
  | [] => .error (peeked .eofValue [])
  | byte :: rest =>
    if byte = 0x22 then readString rest
    else .error (mismatch .string (byte :: rest))

/-- Where an element of an array or a member of an object starts: behind white space and,
unless it is the first one, a comma. -/
inductive Next where
  /-- The bracket is closed, and these bytes follow it. -/
  | closed (rest : List UInt8)
  /-- An element or member starts with these bytes. -/
  | starts (bytes : List UInt8)

/-- Finds the start of the next element, or the end of the array. -/
def nextElement (first : Bool) (bytes : List UInt8) : Except Failure Next :=
  match skipSpace bytes with
  | [] => .error (peeked .eofList [])
  | byte :: rest =>
    if byte = 0x5D then .ok (.closed rest)
    else if first then .ok (.starts (byte :: rest))
    else if byte = 0x2C then
      match skipSpace rest with
      | [] => .error (peeked .eofValue [])
      | byte :: rest =>
        if byte = 0x5D then .error (peeked .trailingComma (byte :: rest))
        else .ok (.starts (byte :: rest))
    else .error (peeked .expectedListEnd (byte :: rest))

/-- Finds the start of the next key, behind its opening quote, or the end of the object. -/
def nextKey (first : Bool) (bytes : List UInt8) : Except Failure Next :=
  match skipSpace bytes with
  | [] => .error (peeked .eofObject [])
  | byte :: rest =>
    if byte = 0x7D then .ok (.closed rest)
    else if first then
      if byte = 0x22 then .ok (.starts rest)
      else .error (peeked .keyNotString (byte :: rest))
    else if byte = 0x2C then
      match skipSpace rest with
      | [] => .error (peeked .eofValue [])
      | byte :: rest =>
        if byte = 0x22 then .ok (.starts rest)
        else if byte = 0x7D then .error (peeked .trailingComma (byte :: rest))
        else .error (peeked .keyNotString (byte :: rest))
    else .error (peeked .expectedObjectEnd (byte :: rest))

/-- Behind a string value, there are fewer bytes. -/
theorem length_of_readStringValue {bytes rest : List UInt8} {value : String}
    (h : readStringValue bytes = .ok (value, rest)) : rest.length < bytes.length := by
  simp only [readStringValue] at h
  split at h
  · simp at h
  · next heq =>
    split at h
    · exact Nat.lt_trans (length_of_readString h) (length_of_skipSpace heq)
    · simp at h

/-- Where an element starts, there are no more bytes than before it was looked for. -/
theorem length_of_nextElement {first : Bool} {bytes rest : List UInt8}
    (h : nextElement first bytes = .ok (.starts rest)) : rest.length ≤ bytes.length := by
  simp only [nextElement] at h
  split at h
  · simp at h
  · next heq =>
    have hlen := length_of_skipSpace heq
    split at h
    · simp at h
    · split at h
      · simp only [Except.ok.injEq, Next.starts.injEq] at h
        subst h
        exact hlen
      · split at h
        · split at h
          · simp at h
          · next hinner =>
            have := length_of_skipSpace hinner
            split at h
            · simp at h
            · simp only [Except.ok.injEq, Next.starts.injEq] at h
              simp only [← h, List.length_cons]
              omega
        · simp at h

/-- Where a key starts, the quote that opens it has been read. -/
theorem length_of_nextKey {first : Bool} {bytes rest : List UInt8}
    (h : nextKey first bytes = .ok (.starts rest)) : rest.length < bytes.length := by
  simp only [nextKey] at h
  split at h
  · simp at h
  · next heq =>
    have hlen := length_of_skipSpace heq
    split at h
    · simp at h
    · split at h
      · split at h
        · simp only [Except.ok.injEq, Next.starts.injEq] at h
          exact h ▸ hlen
        · simp at h
      · split at h
        · split at h
          · simp at h
          · next hinner =>
            have := length_of_skipSpace hinner
            split at h
            · simp only [Except.ok.injEq, Next.starts.injEq] at h
              subst h
              omega
            · split at h <;> simp at h
        · simp at h

/-- Reads the strings of an array behind its opening bracket, or behind the element before
them. -/
def readStrings (first : Bool) (bytes : List UInt8) : Read (List String) :=
  match _hn : nextElement first bytes with
  | .error failure => .error failure
  | .ok (.closed rest) => .ok ([], rest)
  | .ok (.starts start) =>
    match _hs : readStringValue start with
    | .error failure => .error failure
    | .ok (value, rest) =>
      match readStrings false rest with
      | .error failure => .error failure
      | .ok (values, rest) => .ok (value :: values, rest)
termination_by bytes.length
decreasing_by
  exact Nat.lt_of_lt_of_le (length_of_readStringValue _hs) (length_of_nextElement _hn)

/-- Reads a list of strings. -/
def readList (bytes : List UInt8) : Read (List String) :=
  match skipSpace bytes with
  | [] => .error (peeked .eofValue [])
  | byte :: rest =>
    if byte = 0x5B then readStrings true rest
    else .error (mismatch .sequence (byte :: rest))

/-- Behind an array of strings, there are fewer bytes. -/
theorem length_of_readStrings {first : Bool} {bytes rest : List UInt8}
    {values : List String} (h : readStrings first bytes = .ok (values, rest)) :
    rest.length < bytes.length := by
  fun_induction readStrings first bytes generalizing values rest with
  | case1 => simp at h
  | case2 first bytes rest' hn =>
    simp only [Except.ok.injEq, Prod.mk.injEq] at h
    simp only [nextElement] at hn
    split at hn
    · simp at hn
    · next heq =>
      have hlen := length_of_skipSpace heq
      split at hn
      · simp only [Except.ok.injEq, Next.closed.injEq] at hn
        rw [← h.2, ← hn]
        exact hlen
      · split at hn
        · simp at hn
        · split at hn
          · split at hn
            · simp at hn
            · split at hn <;> simp at hn
          · simp at hn
  | case3 => simp at h
  | case4 => simp at h
  | case5 first bytes start hn value rest' hs values' rest'' hrec ih =>
    simp only [Except.ok.injEq, Prod.mk.injEq] at h
    have := ih hrec
    have := length_of_readStringValue hs
    have := length_of_nextElement hn
    rw [← h.2]
    omega

/-- Behind a list, there are fewer bytes. -/
theorem length_of_readList {bytes rest : List UInt8} {values : List String}
    (h : readList bytes = .ok (values, rest)) : rest.length < bytes.length := by
  simp only [readList] at h
  split at h
  · simp at h
  · next heq =>
    split at h
    · exact Nat.lt_trans (length_of_readStrings h) (length_of_skipSpace heq)
    · simp at h

/-- The lists that have been read, each with its field. -/
abbrev Lists := List (Field × List String)

/-- The message of the lists that have been read; the other ones are empty. -/
def Lists.toMessage (kind : Kind) (lists : Lists) : Message kind :=
  Message.ofLists kind fun number =>
    ((lists.find? fun entry => entry.1.number == number).map Prod.snd).getD []

/-- Reads the end of an array whose fields have all been read. -/
def readArrayEnd (bytes : List UInt8) : Except Failure (List UInt8) :=
  match skipSpace bytes with
  | [] => .error (peeked .eofList [])
  | byte :: rest =>
    if byte = 0x5D then .ok rest
    else if byte = 0x2C then
      match skipSpace rest with
      | [] => .error (peeked .trailingCharacters [])
      | byte :: rest =>
        if byte = 0x5D then .error (peeked .trailingComma (byte :: rest))
        else .error (peeked .trailingCharacters (byte :: rest))
    else .error (peeked .trailingCharacters (byte :: rest))

/-- Reads the lists of an array, one for each field, until the array ends. -/
def readElements : (fields : List Field) → (first : Bool) → (bytes : List UInt8) →
    Read Lists
  | [], _, bytes =>
    match readArrayEnd bytes with
    | .error failure => .error failure
    | .ok rest => .ok ([], rest)
  | field :: fields, first, bytes =>
    match nextElement first bytes with
    | .error failure => .error failure
    | .ok (.closed rest) => .ok ([], rest)
    | .ok (.starts start) =>
      match readList start with
      | .error failure => .error failure
      | .ok (list, rest) =>
        match readElements fields false rest with
        | .error failure => .error failure
        | .ok (lists, rest) => .ok ((field, list) :: lists, rest)

/-- The failure of a key that occurs for the second time. It is reported behind the white
space that follows the key, and behind the end of the object if it follows at once. -/
def duplicate (field : Field) (bytes : List UInt8) : Failure :=
  match skipSpace bytes with
  | [] => here (.duplicateField field.name) []
  | byte :: rest =>
    if byte = 0x7D then here (.duplicateField field.name) rest
    else here (.duplicateField field.name) (byte :: rest)

/-- Reads what follows the key of an unknown member. -/
def skipMember (bytes : List UInt8) : Except Failure (List UInt8) :=
  match readColon bytes with
  | .error failure => .error failure
  | .ok rest => skipValue rest

/-- Reads what follows the key of a field. -/
def readMember (bytes : List UInt8) : Read (List String) :=
  match readColon bytes with
  | .error failure => .error failure
  | .ok rest => readList rest

/-- Behind the value of an unknown member, there are fewer bytes. -/
theorem length_of_skipMember {bytes rest : List UInt8}
    (h : skipMember bytes = .ok rest) : rest.length < bytes.length := by
  simp only [skipMember] at h
  split at h
  · simp at h
  · next heq => exact Nat.lt_of_le_of_lt (length_of_skipValue h) (length_of_readColon heq)

/-- Behind the value of a member, there are fewer bytes. -/
theorem length_of_readMember {bytes rest : List UInt8} {values : List String}
    (h : readMember bytes = .ok (values, rest)) : rest.length < bytes.length := by
  simp only [readMember] at h
  split at h
  · simp at h
  · next heq => exact Nat.lt_trans (length_of_readList h) (length_of_readColon heq)

/-- Reads the members of an object behind its opening bracket or the member before them,
when `found` are the lists of those before. -/
def readMembers (kind : Kind) (found : Lists) (first : Bool) (bytes : List UInt8) :
    Read Lists :=
  match _hn : nextKey first bytes with
  | .error failure => .error failure
  | .ok (.closed rest) => .ok (found, rest)
  | .ok (.starts start) =>
    match _hk : readString start with
    | .error failure => .error failure
    | .ok (key, rest) =>
      match kind.fieldWithName? key with
      | none =>
        match _hv : skipMember rest with
        | .error failure => .error failure
        | .ok rest => readMembers kind found false rest
      | some field =>
        if found.any fun entry => entry.1.number == field.number then
          .error (duplicate field rest)
        else
          match _hv : readMember rest with
          | .error failure => .error failure
          | .ok (list, rest) => readMembers kind (found ++ [(field, list)]) false rest
termination_by bytes.length
decreasing_by
  · have := length_of_nextKey _hn
    have := length_of_readString _hk
    have := length_of_skipMember _hv
    omega
  · have := length_of_nextKey _hn
    have := length_of_readString _hk
    have := length_of_readMember _hv
    omega

/-- Reads a message. -/
def readMessage (kind : Kind) (bytes : List UInt8) : Read (Message kind) :=
  let lists : Read Lists :=
    match skipSpace bytes with
    | [] => .error (peeked .eofValue [])
    | byte :: rest =>
      if byte = 0x5B then readElements kind.fields true rest
      else if byte = 0x7B then readMembers kind [] true rest
      else .error (mismatch (.struct kind.title) (byte :: rest))
  match lists with
  | .error failure => .error failure
  | .ok (lists, rest) => .ok (lists.toMessage kind, rest)

/-- The message of a whole document, behind which only white space may follow. -/
def readDocument (kind : Kind) (bytes : List UInt8) : Except Failure (Message kind) :=
  match readMessage kind bytes with
  | .error failure => .error failure
  | .ok (message, rest) =>
    match skipSpace rest with
    | [] => .ok message
    | byte :: rest => .error (peeked .trailingCharacters (byte :: rest))

/-- The message of a whole document, or the first failure with its place. -/
def read (kind : Kind) (bytes : List UInt8) : Except Error (Message kind) :=
  match readDocument kind bytes with
  | .error failure => .error (failure.within bytes)
  | .ok message => .ok message

end Json

end InferenceConfig
