import InferenceConfig.Proofs.Json.Denotation
import InferenceConfig.Proofs.Unicode.Utf8

/-!
# Sizes of Strings Read from JSON

No string that is read from a document has more bytes than the document. An escape stands for
no more bytes than it takes, even if it stands for a character of four bytes, and what is read
raw stands for itself. So the bound holds for one string, and for all strings of the lists that
are read one after another.

## Main results

* `Json.length_add_of_readContent` — the bytes that a string stands for and those that follow;
* `Json.fitsIn_of_read` — the values of a message that is read.
-/

namespace InferenceConfig

namespace Json

variable {bytes content rest : List UInt8}

/-! ### One string -/

/-- Four digits are read. -/
theorem length_eq_of_readHex {n : Nat} (h : readHex bytes = .ok (n, rest)) :
    bytes.length = rest.length + 4 := by
  unfold readHex at h
  split at h
  · split at h
    · simp only [Except.ok.injEq, Prod.mk.injEq] at h
      simp only [List.length_cons, ← h.2]
    · simp at h
  · simp at h

/-- A trailing surrogate is read behind six more bytes. -/
theorem length_add_of_readTrailing {leading : Nat}
    (h : readTrailing leading bytes = .ok (content, rest)) :
    content.length + rest.length ≤ bytes.length := by
  unfold readTrailing at h
  split at h
  · simp at h
  · split at h <;> simp at h
  · split at h
    · simp at h
    · split at h
      · simp at h
      · split at h
        · simp at h
        · next heq =>
          split at h
          · simp only [Except.ok.injEq, Prod.mk.injEq] at h
            have hhex := length_eq_of_readHex heq
            have hchar : content.length ≤ 4 := h.1 ▸ Utf8.length_encodeChar_le _
            simp only [List.length_cons, ← h.2]
            omega
          · simp at h

/-- An escape stands for at most as many bytes as it takes. -/
theorem length_add_of_readEscape (h : readEscape bytes = .ok (content, rest)) :
    content.length + rest.length ≤ bytes.length := by
  unfold readEscape at h
  split at h
  · simp at h
  · split at h
    · simp only [readCodePoint] at h
      split at h
      · simp at h
      · next heq =>
        have hhex := length_eq_of_readHex heq
        split at h
        · simp at h
        · split at h
          · have := length_add_of_readTrailing h
            simp only [List.length_cons]
            omega
          · simp only [Except.ok.injEq, Prod.mk.injEq] at h
            have hchar : content.length ≤ 4 := h.1 ▸ Utf8.length_encodeChar_le _
            simp only [List.length_cons, ← h.2]
            omega
    · split at h
      · simp only [Except.ok.injEq, Prod.mk.injEq] at h
        obtain ⟨rfl, rfl⟩ := h
        simp only [List.length_cons, List.length_nil]
        omega
      · simp at h

/-- The bytes that a string stands for and those that follow it are no more than there were.
Induction on the run. -/
theorem length_add_of_readContent (h : readContent bytes = .ok (content, rest)) :
    content.length + rest.length ≤ bytes.length := by
  fun_induction readContent bytes generalizing content rest with
  | case1 => simp at h
  | case2 =>
      simp only [Except.ok.injEq, Prod.mk.injEq] at h
      obtain ⟨rfl, rfl⟩ := h
      simp
  | case3 => simp at h
  | case4 => simp at h
  | case5 rest' escaped rest'' hescape content' rest''' hcontent _ ih =>
      simp only [Except.ok.injEq, Prod.mk.injEq] at h
      obtain ⟨rfl, rfl⟩ := h
      have hread := ih hcontent
      have hsize := length_add_of_readEscape hescape
      simp only [List.length_append, List.length_cons]
      omega
  | case6 => simp at h
  | case7 => simp at h
  | case8 byte rest' _ _ _ content' rest'' hcontent ih =>
      simp only [Except.ok.injEq, Prod.mk.injEq] at h
      obtain ⟨rfl, rfl⟩ := h
      have hread := ih hcontent
      simp only [List.length_cons]
      omega

/-- A string is not longer than what it is read from: an escape of six bytes stands for at most
three, and two of them for four. -/
theorem utf8ByteSize_of_readString {value : String} (h : readString bytes = .ok (value, rest)) :
    value.utf8ByteSize ≤ bytes.length := by
  simp only [readString] at h
  split at h
  · simp at h
  · next heq =>
    split at h
    · simp at h
    · next htext =>
      simp only [Except.ok.injEq, Prod.mk.injEq] at h
      obtain ⟨rfl, rfl⟩ := h
      have hlength := length_add_of_readContent heq
      rw [Utf8.decode_eq_ok_iff.mp htext] at hlength
      rw [← Utf8.length_encode_toList, String.toList_ofList]
      omega

/-! ### Lists of strings -/

/-- The bound on strings, for a string value. -/
theorem utf8ByteSize_of_readStringValue {value : String}
    (h : readStringValue bytes = .ok (value, rest)) : value.utf8ByteSize ≤ bytes.length := by
  simp only [readStringValue] at h
  split at h
  · simp at h
  · next heq =>
    split at h
    · exact Nat.le_trans (utf8ByteSize_of_readString h) (Nat.le_of_lt (length_of_skipSpace heq))
    · simp at h

/-- The bound on strings, for all that are read from an array. -/
theorem utf8ByteSize_of_readStrings {first : Bool} {values : List String}
    (h : readStrings first bytes = .ok (values, rest)) :
    ∀ value ∈ values, value.utf8ByteSize ≤ bytes.length := by
  fun_induction readStrings first bytes generalizing values rest with
  | case1 => simp at h
  | case2 =>
      simp only [Except.ok.injEq, Prod.mk.injEq] at h
      simp [← h.1]
  | case3 => simp at h
  | case4 => simp at h
  | case5 first bytes start hnext value rest' hvalue values' rest'' hrest ih =>
      simp only [Except.ok.injEq, Prod.mk.injEq] at h
      have hstart := length_of_nextElement hnext
      have hlength := length_of_readStringValue hvalue
      rw [← h.1, List.forall_mem_cons]
      refine ⟨Nat.le_trans (utf8ByteSize_of_readStringValue hvalue) hstart, ?_⟩
      intro other hother
      have hsize := ih hrest other hother
      omega

/-- The bound on strings, for the list of a field. -/
theorem utf8ByteSize_of_readList {values : List String}
    (h : readList bytes = .ok (values, rest)) :
    ∀ value ∈ values, value.utf8ByteSize ≤ bytes.length := by
  simp only [readList] at h
  split at h
  · simp at h
  · next heq =>
    split at h
    · intro value hvalue
      exact Nat.le_trans (utf8ByteSize_of_readStrings h value hvalue)
        (Nat.le_of_lt (length_of_skipSpace heq))
    · simp at h

/-- The bound on strings, for the list of a member. -/
theorem utf8ByteSize_of_readMember {values : List String}
    (h : readMember bytes = .ok (values, rest)) :
    ∀ value ∈ values, value.utf8ByteSize ≤ bytes.length := by
  simp only [readMember] at h
  split at h
  · simp at h
  · next hcolon =>
    intro value hvalue
    exact Nat.le_trans (utf8ByteSize_of_readList h value hvalue)
      (Nat.le_of_lt (length_of_readColon hcolon))

/-! ### Messages -/

/-- No string of the lists has more bytes than `size`. -/
def Lists.FitIn (lists : Lists) (size : Nat) : Prop :=
  ∀ entry ∈ lists, ∀ value ∈ entry.2, value.utf8ByteSize ≤ size

/-- What fits in a size fits in a larger one. -/
theorem Lists.FitIn.mono {lists : Lists} {size larger : Nat} (h : lists.FitIn size)
    (hle : size ≤ larger) : lists.FitIn larger :=
  fun entry hentry value hvalue => Nat.le_trans (h entry hentry value hvalue) hle

/-- No lists fit in any size. -/
theorem Lists.fitIn_nil (size : Nat) : Lists.FitIn [] size := by
  simp [FitIn]

/-- The lists of an array. Induction on the fields. -/
theorem fitIn_of_readElements {fields : List Field} {first : Bool} {lists : Lists}
    (h : readElements fields first bytes = .ok (lists, rest)) : lists.FitIn bytes.length := by
  induction fields generalizing first bytes lists rest with
  | nil =>
      simp only [readElements] at h
      split at h
      · simp at h
      · simp only [Except.ok.injEq, Prod.mk.injEq] at h
        exact h.1 ▸ Lists.fitIn_nil _
  | cons field fields ih =>
      simp only [readElements] at h
      split at h
      · simp at h
      · simp only [Except.ok.injEq, Prod.mk.injEq] at h
        exact h.1 ▸ Lists.fitIn_nil _
      · next hnext =>
        have hstart := length_of_nextElement hnext
        split at h
        · simp at h
        · next hlist =>
          have hlength := length_of_readList hlist
          split at h
          · simp at h
          · next hrest =>
            simp only [Except.ok.injEq, Prod.mk.injEq] at h
            rw [← h.1, Lists.FitIn, List.forall_mem_cons]
            refine ⟨fun value hvalue => ?_, (ih hrest).mono (by omega)⟩
            exact Nat.le_trans (utf8ByteSize_of_readList hlist value hvalue) hstart

/-- The lists of an object, with those that were found before. Induction on the run. -/
theorem fitIn_of_readMembers {kind : Kind} {found lists : Lists} {first : Bool} {size : Nat}
    (h : readMembers kind found first bytes = .ok (lists, rest)) (hfound : found.FitIn size)
    (hbytes : bytes.length ≤ size) : lists.FitIn size := by
  fun_induction readMembers kind found first bytes with
  | case1 => simp at h
  | case2 =>
      simp only [Except.ok.injEq, Prod.mk.injEq] at h
      exact h.1 ▸ hfound
  | case3 => simp at h
  | case4 => simp at h
  | case5 found first bytes start hnext key colon hkey _ after hskip ih =>
      have hstart := length_of_nextKey hnext
      have hcolon := length_of_readString hkey
      have hafter := length_of_skipMember hskip
      exact ih h hfound (by omega)
  | case6 => simp at h
  | case7 => simp at h
  | case8 found first bytes start hnext key colon hkey field _ _ list after hlist ih =>
      have hstart := length_of_nextKey hnext
      have hcolon := length_of_readString hkey
      have hafter := length_of_readMember hlist
      refine ih h (List.forall_mem_append.mpr ⟨hfound, ?_⟩) (by omega)
      rw [List.forall_mem_singleton]
      intro value hvalue
      have hsize := utf8ByteSize_of_readMember hlist value hvalue
      omega

/-- A message has the strings of its lists, and no others. -/
theorem Lists.FitIn.toMessage {kind : Kind} {lists : Lists} {size : Nat}
    (h : lists.FitIn size) : (lists.toMessage kind).FitsIn size := by
  intro field hfield value hvalue
  rw [lists.values_toMessage hfield] at hvalue
  cases hhead : (lists.under field.number).head? with
  | none => simp [hhead] at hvalue
  | some list =>
      rw [hhead, Option.getD_some] at hvalue
      obtain ⟨entry, hentry, rfl⟩ := List.mem_map.mp (List.mem_of_head? hhead)
      exact h entry (List.mem_filter.mp hentry).1 value hvalue

/-- No string of a message is longer than the bytes that the message is read from. -/
theorem fitsIn_of_readMessage {kind : Kind} {message : Message kind}
    (h : readMessage kind bytes = .ok (message, rest)) : message.FitsIn bytes.length := by
  simp only [readMessage] at h
  split at h
  · simp at h
  · next hlists =>
    simp only [Except.ok.injEq, Prod.mk.injEq] at h
    rw [← h.1]
    refine Lists.FitIn.toMessage ?_
    split at hlists
    · simp at hlists
    · next heq =>
      have hlength := Nat.le_of_lt (length_of_skipSpace heq)
      split at hlists
      · exact (fitIn_of_readElements hlists).mono hlength
      · split at hlists
        · exact fitIn_of_readMembers hlists (Lists.fitIn_nil _) hlength
        · simp at hlists

/-- No value of a message that is read has more bytes than the document. -/
theorem fitsIn_of_read {kind : Kind} {message : Message kind}
    (h : read kind bytes = .ok message) : message.FitsIn bytes.length := by
  simp only [read, readDocument] at h
  split at h
  · simp at h
  · next hdocument =>
    split at hdocument
    · simp at hdocument
    · next hmessage =>
      split at hdocument
      · rw [Except.ok.injEq] at hdocument h
        rw [← h, ← hdocument]
        exact fitsIn_of_readMessage hmessage
      · simp at hdocument

end Json

end InferenceConfig
