import InferenceConfig.Proofs.Wire.Merging

/-!
# How a Message Grows

Merging only puts values at the ends of lists, whether or not it comes to a fault. Every
value that it puts there stands in the input as a whole: its length, and behind that all of
its UTF-8 bytes. So no string is stored that was read in part, or that is no text.

Where merging comes to a fault, the input is cut in one way only into a document that is
accepted and a rest that begins with the fault, and the document is what was merged.

## Main definitions

* `Wire.Contains` — a value stands in an input as a whole;
* `Wire.Grows` — a message with more values, all of them from an input.

## Main results

* `Wire.grows_mergeUntil`, `Wire.grows_mergeDelimited`, `Wire.grows_mergeField` — every way
  of merging lets a message grow;
* `Wire.exists_split_of_merge` — the part of an input that is merged before a fault;
* `Wire.split_unique` — there is only one such part.
-/

namespace InferenceConfig

namespace Wire

variable {kind : Kind} {budget : Nat}

/-- The value stands in the input as a whole: a spelling of its length, and behind that all
of its bytes. -/
def Contains (input : List UInt8) (value : String) : Prop :=
  ∃ before length after, Varint.IsSpelling length (Utf8.encode value.toList).length ∧
    input = before ++ (length ++ Utf8.encode value.toList ++ after)

/-- The second message is the first one with more values at the ends of its lists, and all
of these stand in the input. -/
def Grows (input : List UInt8) (first second : Message kind) : Prop :=
  ∀ field ∈ kind.fields, ∃ added,
    second.values field.number = first.values field.number ++ added ∧
    ∀ value ∈ added, Contains input value

/-- A value that stands in the end of an input stands in the input. -/
theorem Contains.append_left {input : List UInt8} {value : String} (h : Contains input value)
    (before : List UInt8) : Contains (before ++ input) value := by
  obtain ⟨start, length, rest, hlength, rfl⟩ := h
  exact ⟨before ++ start, length, rest, hlength, by simp only [List.append_assoc]⟩

/-- A message grows into itself, by no values at all. -/
theorem Grows.refl (input : List UInt8) (message : Message kind) :
    Grows input message message :=
  fun _ _ => ⟨[], (List.append_nil _).symm, fun _ hmem => absurd hmem List.not_mem_nil⟩

/-- To grow twice by values of an input is to grow by values of that input. -/
theorem Grows.trans {input : List UInt8} {first second third : Message kind}
    (h₁ : Grows input first second) (h₂ : Grows input second third) :
    Grows input first third := by
  intro field hfield
  obtain ⟨added₁, hvalues₁, hadded₁⟩ := h₁ field hfield
  obtain ⟨added₂, hvalues₂, hadded₂⟩ := h₂ field hfield
  refine ⟨added₁ ++ added₂, by rw [hvalues₂, hvalues₁, List.append_assoc], ?_⟩
  intro value hvalue
  rcases List.mem_append.mp hvalue with hvalue | hvalue
  · exact hadded₁ value hvalue
  · exact hadded₂ value hvalue

/-- What grows by values of the end of an input grows by values of the input. -/
theorem Grows.append_left {input : List UInt8} {first second : Message kind}
    (h : Grows input first second) (before : List UInt8) :
    Grows (before ++ input) first second := by
  intro field hfield
  obtain ⟨added, hvalues, hadded⟩ := h field hfield
  exact ⟨added, hvalues, fun value hvalue => (hadded value hvalue).append_left before⟩

/-- The old lists are what the new lists begin with. -/
theorem Grows.values_isPrefix {input : List UInt8} {first second : Message kind} {field : Field}
    (h : Grows input first second) (hfield : field ∈ kind.fields) :
    first.values field.number <+: second.values field.number := by
  obtain ⟨added, hvalues, -⟩ := h field hfield
  exact ⟨added, hvalues.symm⟩

/-! ### Every way of merging -/

/-- A value that is read behind a key stands in what follows the key. -/
theorem contains_of_readBody {key : Key} {bytes rest : List UInt8} {field : Field}
    {value : String} (h : readBody kind budget key bytes = .ok (.stored field value, rest)) :
    Contains bytes value := by
  rw [readBody] at h
  split at h
  · simp at h
  · split at h
    · split at h
      · simp at h
      · next hread =>
          simp only [Except.ok.injEq, Prod.mk.injEq, Record.stored.injEq] at h
          obtain ⟨⟨-, rfl⟩, rfl⟩ := h
          obtain ⟨-, length, hlength, hbytes⟩ := readString_eq_ok_iff.mp hread
          exact ⟨[], length, _, hlength, hbytes⟩
    · split at h
      · simp at h
      · simp at h

/-- A record that is read adds nothing to a message but a value that stands behind its key. -/
theorem grows_addTo {message : Message kind} {key : Key} {bytes rest : List UInt8}
    {record : Record} (h : readBody kind budget key bytes = .ok (record, rest)) :
    Grows bytes message (record.addTo message) := by
  intro field hfield
  refine ⟨_, values_addTo message record hfield, fun value hvalue => ?_⟩
  rw [Option.mem_toList] at hvalue
  cases record with
  | stored other stored =>
      rw [Record.valueFor?, Option.ite_none_right_eq_some, Option.some.injEq] at hvalue
      exact hvalue.2 ▸ contains_of_readBody h
  | skipped key => simp [Record.valueFor?] at hvalue

/-- What is merged behind a key lets a message grow, whether or not it is at fault. -/
theorem grows_mergeField (budget : Nat) (message : Message kind) (key : Key)
    (bytes : List UInt8) : Grows bytes message (mergeField budget message key bytes).2 := by
  cases hmerge : mergeField budget message key bytes with
  | mk outcome merged =>
      cases outcome with
      | error e =>
          obtain ⟨-, rfl⟩ := mergeField_eq_error_iff.mp hmerge
          exact .refl bytes merged
      | ok rest =>
          obtain ⟨record, hread, rfl⟩ := mergeField_eq_ok_iff.mp hmerge
          exact grows_addTo hread

/-- A record lets a message grow, whether or not it is at fault. -/
theorem grows_mergeRecord (budget : Nat) (message : Message kind) (bytes : List UInt8) :
    Grows bytes message (mergeRecord budget message bytes).2 := by
  rw [mergeRecord]
  split
  · exact .refl bytes message
  · next key body hkey =>
      obtain ⟨start, rfl, -⟩ := Key.read_eq_ok_iff.mp hkey
      exact (grows_mergeField budget message key body).append_left start

/-- What follows a record that is merged is the end of the input. -/
theorem exists_append_of_mergeRecord {message merged : Message kind} {bytes rest : List UInt8}
    (h : mergeRecord budget message bytes = (.ok rest, merged)) :
    ∃ before, bytes = before ++ rest := by
  obtain ⟨record, hread, -⟩ := mergeRecord_eq_ok_iff.mp h
  obtain ⟨segment, rfl, -⟩ := readRecord_eq_ok_iff.mp hread
  exact ⟨segment.bytes, rfl⟩

/-- Merging records lets a message grow. Induction on the run: each record does, and what
follows it is a part of the input. -/
theorem grows_mergeUntil (limit budget : Nat) (message : Message kind)
    (bytes : List UInt8) :
    Grows bytes message (mergeUntil limit budget message bytes).message := by
  fun_induction mergeUntil limit budget message bytes with
  | case1 message bytes => exact .refl bytes message
  | case2 message bytes => exact .refl bytes message
  | case3 message bytes hlt e merged hmerge =>
      have hrecord := grows_mergeRecord budget message bytes
      rwa [hmerge] at hrecord
  | case4 message bytes hlt rest merged hmerge ih =>
      have hrecord := grows_mergeRecord budget message bytes
      rw [hmerge] at hrecord
      obtain ⟨before, rfl⟩ := exists_append_of_mergeRecord hmerge
      exact hrecord.trans (ih.append_left before)

/-- Merging from behind a length lets a message grow. -/
theorem grows_mergeDelimited (message : Message kind) (bytes : List UInt8) :
    Grows bytes message (mergeDelimited message bytes).message := by
  rw [mergeDelimited]
  split
  · exact .refl bytes message
  · next length rest hread =>
      obtain ⟨start, rfl, -⟩ := Varint.read?_eq_some_iff.mp hread
      split
      · exact .refl _ message
      · exact (grows_mergeUntil _ _ message rest).append_left start

/-! ### Up to a fault -/

/-- What is merged before a fault is a document that is accepted, and the rest begins with
the fault. -/
theorem exists_split_of_merge {message : Message kind} {bytes : List UInt8} {e : DecodeError}
    (h : (merge message bytes).error? = some e) :
    ∃ before after read, bytes = before ++ after ∧ decode kind before = .ok read ∧
      readRecord kind nestingBudget after = .error e ∧
      (merge message bytes).message = message.append read := by
  rw [merge, mergeUntil_eq_append, mergeUntil_eq] at h ⊢
  obtain ⟨segments, after, hbytes, hreads, -, hrecord⟩ := readUntil_eq_some_iff.mp
    (show readUntil kind 0 nestingBudget bytes = ⟨_, some e⟩ from congrArg (Reading.mk _) h)
  exact ⟨_, after, _, hbytes, decode_eq_ok_iff.mpr ⟨segments, _, rfl, hreads, rfl⟩, hrecord,
    rfl⟩

/-- An input is cut in one way only into records that are read and a rest whose first record
is not. Induction on the records before. -/
theorem segments_unique {segments₁ segments₂ : List Segment} {records₁ records₂ : List Record}
    {rest₁ rest₂ : List UInt8} {e₁ e₂ : DecodeError}
    (hreads₁ : List.Forall₂ (Segment.Reads kind budget) segments₁ records₁)
    (hreads₂ : List.Forall₂ (Segment.Reads kind budget) segments₂ records₂)
    (hrest₁ : readRecord kind budget rest₁ = .error e₁)
    (hrest₂ : readRecord kind budget rest₂ = .error e₂)
    (happend : segments₁.flatMap Segment.bytes ++ rest₁ =
      segments₂.flatMap Segment.bytes ++ rest₂) :
    segments₁ = segments₂ ∧ rest₁ = rest₂ := by
  induction hreads₁ generalizing segments₂ records₂ with
  | nil =>
      cases hreads₂ with
      | nil => exact ⟨rfl, happend⟩
      | cons hsegment _ =>
          rw [List.flatMap_nil, List.nil_append, List.flatMap_cons, List.append_assoc] at happend
          rw [happend, hsegment.readRecord] at hrest₁
          simp at hrest₁
  | cons hsegment₁ _ ih =>
      rw [List.flatMap_cons, List.append_assoc] at happend
      cases hreads₂ with
      | nil =>
          rw [List.flatMap_nil, List.nil_append] at happend
          rw [← happend, hsegment₁.readRecord] at hrest₂
          simp at hrest₂
      | cons hsegment₂ hreads₂ =>
          rw [List.flatMap_cons, List.append_assoc] at happend
          obtain ⟨rfl, htail⟩ := hsegment₁.isComplete.append_inj hsegment₂.isComplete happend
          obtain ⟨rfl, rfl⟩ := ih hreads₂ htail
          exact ⟨rfl, rfl⟩

/-- An input is cut in one way only into a document that is accepted and a rest whose first
record is not read. -/
theorem split_unique {before₁ before₂ after₁ after₂ : List UInt8}
    {message₁ message₂ : Message kind} {e₁ e₂ : DecodeError}
    (hbefore₁ : decode kind before₁ = .ok message₁)
    (hbefore₂ : decode kind before₂ = .ok message₂)
    (hafter₁ : readRecord kind nestingBudget after₁ = .error e₁)
    (hafter₂ : readRecord kind nestingBudget after₂ = .error e₂)
    (happend : before₁ ++ after₁ = before₂ ++ after₂) :
    before₁ = before₂ ∧ after₁ = after₂ := by
  obtain ⟨segments₁, records₁, rfl, hreads₁, -⟩ := decode_eq_ok_iff.mp hbefore₁
  obtain ⟨segments₂, records₂, rfl, hreads₂, -⟩ := decode_eq_ok_iff.mp hbefore₂
  obtain ⟨rfl, rfl⟩ := segments_unique hreads₁ hreads₂ hafter₁ hafter₂ happend
  exact ⟨rfl, rfl⟩

end Wire

end InferenceConfig
