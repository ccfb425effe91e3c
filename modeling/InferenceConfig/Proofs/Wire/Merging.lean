import InferenceConfig.Proofs.Wire.RoundTrip

/-!
# Merging Is Appending

Merging an input is reading it and appending what was read. So the outcome of merging does
not depend on the message that is merged into, and its lists only come before those that
are read. One input behind another is merged like the two inputs one after the other.

What is written for a message is read as that message, so merging it is appending the
message. Merging of written messages is therefore associative, with the empty message as its
identity. As for reading back, lengths must have at most 64 bits.

## Main definitions

* `Wire.LengthsFit` — the length of every value has at most 64 bits.

## Main results

* `Wire.mergeUntil_eq_append` — merging into a message is appending to it what is merged
  into the empty one;
* `Wire.merge_append_bytes` — one input behind another;
* `Wire.merge_encode_iff` — when what is written for a message is merged as that message;
* `Wire.merge_homomorphism` — merging as a whole.
-/

namespace InferenceConfig

namespace Wire

variable {kind : Kind} {limit budget : Nat}

/-! ### The message that is merged into -/

/-- Records add to a message what they add to the empty one. -/
theorem addAll_eq_append (message : Message kind) (records : List Record) :
    addAll message records = message.append (addAll (Message.empty kind) records) := by
  refine Message.ext_values fun field hfield => ?_
  rw [Message.values_append _ _ hfield, values_addAll _ _ hfield, values_addAll _ _ hfield,
    Message.values_empty hfield, List.nil_append]

/-- Merging into a message is appending to it what is merged into the empty one, and ends
in the same way. -/
theorem mergeUntil_eq_append (message : Message kind) (bytes : List UInt8) :
    mergeUntil limit budget message bytes =
      ⟨message.append (mergeUntil limit budget (Message.empty kind) bytes).message,
        (mergeUntil limit budget (Message.empty kind) bytes).error?⟩ := by
  rw [mergeUntil_eq, mergeUntil_eq, addAll_eq_append]

/-! ### One input behind another -/

/-- Behind an input that is merged to its end, another one is merged as if it stood alone. -/
theorem merge_append_bytes {message : Message kind} {first : List UInt8}
    (hfirst : (merge message first).error? = none) (second : List UInt8) :
    merge message (first ++ second) = merge (merge message first).message second := by
  rw [merge, mergeUntil_eq] at hfirst
  obtain ⟨segments, rfl, hreads⟩ := readUntil_eq_none_iff.mp
    (show readUntil kind 0 nestingBudget first = ⟨_, none⟩ from congrArg (Reading.mk _) hfirst)
  simp only [merge, mergeUntil_eq]
  rw [readUntil_flatMap_append hreads (Nat.zero_le _), addAll, List.foldl_append]
  rfl

/-! ### Written messages -/

/-- The length of every value has at most 64 bits. -/
def LengthsFit (message : Message kind) : Prop :=
  ∀ entry ∈ message.entries, entry.2.utf8ByteSize < 0x10000000000000000

/-- Lengths fit in two messages one behind the other if they fit in both. -/
theorem lengthsFit_append {first second : Message kind} (hfirst : LengthsFit first)
    (hsecond : LengthsFit second) : LengthsFit (first.append second) := by
  intro entry hentry
  obtain ⟨hfield, hvalue⟩ := Message.mem_entries_iff.mp hentry
  rw [Message.values_append _ _ hfield, List.mem_append] at hvalue
  rcases hvalue with hvalue | hvalue
  · exact hfirst entry (Message.mem_entries_iff.mpr ⟨hfield, hvalue⟩)
  · exact hsecond entry (Message.mem_entries_iff.mpr ⟨hfield, hvalue⟩)

/-- The empty message has no lengths. -/
theorem lengthsFit_empty : LengthsFit (Message.empty kind) := by
  intro entry hentry
  rw [Message.entries_empty] at hentry
  exact absurd hentry List.not_mem_nil

/-- What is written for a message is merged as that message exactly if all its lengths have
at most 64 bits. -/
theorem merge_encode_iff {message written : Message kind} :
    merge message (encode written) = ⟨message.append written, none⟩ ↔ LengthsFit written := by
  rw [merge, mergeUntil_eq_append, mergeUntil_eq, encode_eq]
  constructor
  · intro h
    by_contra hlong
    obtain ⟨found, field, hreading⟩ := readUntil_entries_of_long
      (fun entry hentry => Message.mem_fields_of_mem_entries hentry) hlong []
    rw [List.append_nil] at hreading
    rw [hreading] at h
    simp at h
  · intro h
    rw [readUntil_eq_none_iff.mpr ⟨_, rfl, reads_entries h⟩, addAll_entries]

/-- **Merging is appending.** An input behind one that is merged to its end is merged as if
the message came from there. The outcome does not depend on the message that is merged into,
and its lists come before those that are read, whether or not a fault is met. What is
written for a message is merged as that message, so merging written messages is associative
and has the empty message as its identity. -/
theorem merge_homomorphism (kind : Kind) :
    (∀ (message : Message kind) first second, (merge message first).error? = none →
      merge message (first ++ second) = merge (merge message first).message second) ∧
    (∀ (message : Message kind) bytes,
      (merge message bytes).error? = (merge (Message.empty kind) bytes).error? ∧
      ∀ field ∈ kind.fields, (merge message bytes).message.values field.number =
        message.values field.number ++
          (merge (Message.empty kind) bytes).message.values field.number) ∧
    (∀ message written : Message kind,
      merge message (encode written) = ⟨message.append written, none⟩ ↔
        LengthsFit written) ∧
    (∀ first second third : Message kind, LengthsFit second → LengthsFit third →
      merge (merge first (encode second)).message (encode third) =
        merge first (encode (merge second (encode third)).message)) ∧
    (∀ message : Message kind,
      merge message (encode (Message.empty kind)) = ⟨message, none⟩ ∧
      (LengthsFit message → merge (Message.empty kind) (encode message) =
        ⟨message, none⟩)) := by
  refine ⟨fun message first second hfirst => merge_append_bytes hfirst second,
    fun message bytes => ⟨?_, fun field hfield => ?_⟩, fun message written => merge_encode_iff,
    fun first second third hsecond hthird => ?_, fun message => ⟨?_, fun hmessage => ?_⟩⟩
  · rw [merge, mergeUntil_eq_append]
    rfl
  · rw [merge, mergeUntil_eq_append, Message.values_append _ _ hfield]
    rfl
  · have happend := lengthsFit_append hsecond hthird
    simp only [merge_encode_iff.mpr hsecond, merge_encode_iff.mpr hthird,
      merge_encode_iff.mpr happend, Message.append_assoc]
  · rw [merge_encode_iff.mpr lengthsFit_empty, Message.append_empty]
  · rw [merge_encode_iff.mpr hmessage, Message.empty_append]

/-- Behind a record, a string that is cut off is the fault that it is on its own. Three
messages are merged in either order of nesting, and one of them into the empty message. -/
theorem merge_homomorphism_model :
    @merge .model ⟨["a"], []⟩ ([0x12, 0x01, 0x62] ++ [0x12, 0x01, 0x63, 0x2a, 0x05, 0x64]) =
      @merge .model ⟨["a", "b"], []⟩ [0x12, 0x01, 0x63, 0x2a, 0x05, 0x64] ∧
    merge (@merge .model ⟨["a"], ["x"]⟩ (@encode .model ⟨["b", ""], []⟩)).message
        (@encode .model ⟨["a"], ["größe"]⟩) =
      @merge .model ⟨["a"], ["x"]⟩
        (encode (@merge .model ⟨["b", ""], []⟩ (@encode .model ⟨["a"], ["größe"]⟩)).message) ∧
    merge (Message.empty .model) (@encode .model ⟨["a"], ["größe"]⟩) =
      ⟨⟨["a"], ["größe"]⟩, none⟩ := by
  obtain ⟨happend, -, -, hassoc, hidentity⟩ := merge_homomorphism .model
  have hfirst : (@merge .model ⟨["a"], []⟩ [0x12, 0x01, 0x62]).error? = none := by
    decide +kernel
  have hmessage : (@merge .model ⟨["a"], []⟩ [0x12, 0x01, 0x62]).message =
      ⟨["a", "b"], []⟩ := by decide +kernel
  have hsecond : @LengthsFit .model ⟨["b", ""], []⟩ := by
    unfold LengthsFit
    decide
  have hthird : @LengthsFit .model ⟨["a"], ["größe"]⟩ := by
    unfold LengthsFit
    decide
  refine ⟨?_, hassoc _ _ _ hsecond hthird, (hidentity _).2 hthird⟩
  rw [happend _ _ _ hfirst, hmessage]

end Wire

end InferenceConfig
