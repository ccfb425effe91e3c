import InferenceConfig.Wire.Key

/-!
# Skipping Records

A record of an unknown field is skipped, whatever its layout. Only a group is more than a
length to pass over: its members are skipped up to the key that ends it, and they may be
groups again. The numbers of the groups that are still open are kept in a list, innermost
first, and a budget bounds its length.

## Main definitions

* `Wire.skipFlat` — passes over a body that is no group;
* `Wire.skipGroups` — passes over the rest of all open groups;
* `Wire.skip` — passes over the body that follows a key.
-/

namespace InferenceConfig

namespace Wire

/-- What follows the next `count` bytes. -/
def skipBytes (count : Nat) (bytes : List UInt8) : Except Fault (List UInt8) :=
  if count ≤ bytes.length then .ok (bytes.drop count) else .error .underflow

/-- What follows a body that is not a group. The end of a group is no body. -/
def skipFlat (wireType : WireType) (bytes : List UInt8) : Except Fault (List UInt8) :=
  match wireType with
  | .varint =>
    match Varint.read? bytes with
    | none => .error .invalidVarint
    | some (_, rest) => .ok rest
  | .sixtyFourBit => skipBytes 8 bytes
  | .thirtyTwoBit => skipBytes 4 bytes
  | .lengthDelimited =>
    match Varint.read? bytes with
    | none => .error .invalidVarint
    | some (length, rest) => skipBytes length rest
  | .startGroup => .ok bytes
  | .endGroup => .error .unexpectedEndGroup

/-- Skipping a number of bytes leaves no more bytes. -/
theorem length_of_skipBytes {count : Nat} {bytes rest : List UInt8}
    (h : skipBytes count bytes = .ok rest) : rest.length ≤ bytes.length := by
  simp only [skipBytes] at h
  split at h
  · simp only [Except.ok.injEq] at h
    simp only [← h, List.length_drop]
    omega
  · simp at h

/-- Skipping a value that is not a group leaves no more bytes. -/
theorem length_of_skipFlat {wireType : WireType} {bytes rest : List UInt8}
    (h : skipFlat wireType bytes = .ok rest) : rest.length ≤ bytes.length := by
  cases wireType with
  | varint =>
    simp only [skipFlat] at h
    split at h
    · simp at h
    · next heq =>
      simp only [Except.ok.injEq] at h
      exact h ▸ Nat.le_of_lt (Varint.length_of_read? heq)
  | sixtyFourBit => exact length_of_skipBytes h
  | thirtyTwoBit => exact length_of_skipBytes h
  | lengthDelimited =>
    simp only [skipFlat] at h
    split at h
    · simp at h
    · next heq =>
      exact Nat.le_trans (length_of_skipBytes h) (Nat.le_of_lt (Varint.length_of_read? heq))
  | startGroup =>
    simp only [skipFlat, Except.ok.injEq] at h
    simp [h]
  | endGroup => simp [skipFlat] at h

/-- What follows the end of all groups in `groups`, the innermost first. Each key that is
not an end is checked against the budget before its body is passed over. -/
def skipGroups (budget : Nat) (groups : List Nat) (bytes : List UInt8) :
    Except Fault (List UInt8) :=
  match groups with
  | [] => .ok bytes
  | number :: outer =>
    match _h : Key.read bytes with
    | .error fault => .error fault
    | .ok (key, rest) =>
      if key.wireType = .endGroup then
        if key.number = number then skipGroups budget outer rest
        else .error .unexpectedEndGroup
      else if budget ≤ (number :: outer).length then .error .recursionLimit
      else if key.wireType = .startGroup then
        skipGroups budget (key.number :: number :: outer) rest
      else
        match _hf : skipFlat key.wireType rest with
        | .error fault => .error fault
        | .ok rest => skipGroups budget (number :: outer) rest
termination_by bytes.length
decreasing_by
  · exact Key.length_of_read _h
  · exact Key.length_of_read _h
  · exact Nat.lt_of_le_of_lt (length_of_skipFlat _hf) (Key.length_of_read _h)

/-- What follows the body of the record that starts with `key`, when as many as `budget`
records may be nested in one another. -/
def skip (budget : Nat) (key : Key) (bytes : List UInt8) : Except Fault (List UInt8) :=
  if budget = 0 then .error .recursionLimit
  else if key.wireType = .startGroup then skipGroups budget [key.number] bytes
  else skipFlat key.wireType bytes

/-- Skipping groups leaves no more bytes. Induction on the run of the skipper. -/
theorem length_of_skipGroups {budget : Nat} {groups : List Nat}
    {bytes rest : List UInt8} (h : skipGroups budget groups bytes = .ok rest) :
    rest.length ≤ bytes.length := by
  fun_induction skipGroups budget groups bytes with
  | case1 =>
    simp only [Except.ok.injEq] at h
    simp [h]
  | case2 => simp at h
  | case3 bytes outer key rest' hread _ ih =>
    exact Nat.le_trans (ih h) (Nat.le_of_lt (Key.length_of_read hread))
  | case4 => simp at h
  | case5 => simp at h
  | case6 bytes number outer key rest' hread _ _ _ ih =>
    exact Nat.le_trans (ih h) (Nat.le_of_lt (Key.length_of_read hread))
  | case7 => simp at h
  | case8 bytes number outer key rest' hread _ _ _ rest'' hflat ih =>
    exact Nat.le_trans (ih h)
      (Nat.le_trans (length_of_skipFlat hflat) (Nat.le_of_lt (Key.length_of_read hread)))

/-- Skipping a record leaves no more bytes. -/
theorem length_of_skip {budget : Nat} {key : Key} {bytes rest : List UInt8}
    (h : skip budget key bytes = .ok rest) : rest.length ≤ bytes.length := by
  simp only [skip] at h
  split at h
  · simp at h
  · split at h
    · exact length_of_skipGroups h
    · exact length_of_skipFlat h

end Wire

end InferenceConfig
