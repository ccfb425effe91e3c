import InferenceConfig.Proofs.Wire.Growth
import InferenceConfig.Session

/-!
# What a Step Leaves Behind

A step of a session that fails does not leave the message in an unknown state, though records are
merged into it in place. If a single record or a document is at fault, then nothing has changed.
If the records of an input are merged up to a fault, then exactly the document before the fault
has been appended.

Steps that merge never lose anything, whether they fail or not: every list only grows at its
end, and only by values that stand in the input as a whole.

## Main definitions

* `Session.run` — the session after several steps;
* `Session.Step.merged?` — the input of a step that merges.

## Main results

* `Session.step_mergeField_of_notMerged`, `Session.step_merge_of_notMerged` — the session after
  a record, or a whole input, that is at fault;
* `Session.grows_step` — the message after a step that merges;
* `Session.run_of_step` — what a run keeps;
* `Session.values_run_isPrefix` — the message after a run of such steps;
* `Session.step_after_fault` — what every step leaves behind, in every state of a session.
-/

namespace InferenceConfig

namespace Session

variable {kind : Kind}

/-- The session after all the steps, one after another. -/
def run (session : Session kind) (steps : List (Step kind)) : Session kind :=
  steps.foldl (fun session step => (session.step step).2) session

/-- The input of a step that merges, and none for any other step. -/
def Step.merged? (session : Session kind) : Step kind → Option (List UInt8)
  | .merge bytes => some bytes
  | .mergeDelimited bytes => some bytes
  | .mergeField _ bytes => some bytes
  | .mergeStash => some (Wire.encode session.stash)
  | _ => none

/-! ### Steps that fail -/

/-- The message after a record is the one that the merging leaves. -/
theorem snd_step_mergeField (session : Session kind) (key : Key) (bytes : List UInt8) :
    (session.step (.mergeField key bytes)).2 =
      { session with
        message := (Wire.mergeField Wire.nestingBudget session.message key bytes).2 } := by
  rw [step]

/-- After a record at fault the session is as it was, whatever the fault is: at each of them the
message is left as it was. -/
theorem step_mergeField_of_notMerged {session : Session kind} {key : Key}
    {bytes : List UInt8} {e : Wire.DecodeError}
    (h : (session.step (.mergeField key bytes)).1 = .notMerged e) :
    Wire.Refused kind Wire.nestingBudget key bytes e ∧
      (session.step (.mergeField key bytes)).2 = session := by
  rw [snd_step_mergeField]
  rw [step] at h
  cases hmerge : Wire.mergeField Wire.nestingBudget session.message key bytes with
  | mk outcome merged =>
      rw [hmerge] at h
      cases outcome with
      | ok rest => simp at h
      | error found =>
          obtain rfl := Answer.notMerged.inj h
          obtain ⟨hrefused, rfl⟩ := Wire.mergeField_eq_error_iff.mp hmerge
          exact ⟨hrefused, rfl⟩

/-- After a document that cannot be read the session is as it was. -/
theorem step_load_of_notLoaded {session : Session kind} {format : Format}
    {bytes : List UInt8} {e : Document.Error}
    (h : (session.step (.load format bytes)).1 = .notLoaded e) :
    (session.step (.load format bytes)).2 = session := by
  rw [step] at h ⊢
  split at h
  · rfl
  · simp at h

/-- The answer of a merge is its fault. -/
theorem error_of_ofMerged {session : Session kind} {merged : Wire.Merged kind}
    {e : Wire.DecodeError} (h : (session.ofMerged merged).1 = .notMerged e) :
    merged.error? = some e := by
  rw [ofMerged] at h
  split at h
  · simp at h
  · next found hfound => rw [hfound, Answer.notMerged.inj h]

/-- After a merge that fails, the document before the fault has been appended. -/
theorem step_merge_of_notMerged {session : Session kind} {bytes : List UInt8}
    {e : Wire.DecodeError} (h : (session.step (.merge bytes)).1 = .notMerged e) :
    ∃ before after read, bytes = before ++ after ∧ Wire.decode kind before = .ok read ∧
      Wire.readRecord kind Wire.nestingBudget after = .error e ∧
      (session.step (.merge bytes)).2 =
        { session with message := session.message.append read } := by
  obtain ⟨before, after, read, hbytes, hbefore, hafter, hmessage⟩ :=
    Wire.exists_split_of_merge (error_of_ofMerged h)
  refine ⟨before, after, read, hbytes, hbefore, hafter, ?_⟩
  rw [step, ofMerged, hmessage]

/-! ### Steps that merge -/

/-- A step that merges lets the message grow by values of its input. -/
theorem grows_step {session : Session kind} {step : Step kind} {input : List UInt8}
    (h : step.merged? session = some input) :
    Wire.Grows input session.message (session.step step).2.message := by
  cases step with
  | merge bytes =>
      obtain rfl := Option.some.inj h
      exact Wire.grows_mergeUntil 0 Wire.nestingBudget session.message bytes
  | mergeDelimited bytes =>
      obtain rfl := Option.some.inj h
      exact Wire.grows_mergeDelimited session.message bytes
  | mergeField key bytes =>
      obtain rfl := Option.some.inj h
      rw [snd_step_mergeField]
      exact Wire.grows_mergeField Wire.nestingBudget session.message key bytes
  | mergeStash =>
      obtain rfl := Option.some.inj h
      exact Wire.grows_mergeUntil 0 Wire.nestingBudget session.message _
  | _ => simp [Step.merged?] at h

/-- What every step keeps is kept by a run. Induction on the steps. -/
theorem run_of_step {P : Session kind → Prop} {steps : List (Step kind)}
    (h : ∀ step ∈ steps, ∀ session, P session → P (session.step step).2)
    {session : Session kind} (hsession : P session) : P (session.run steps) := by
  induction steps generalizing session with
  | nil => exact hsession
  | cons step steps ih =>
      obtain ⟨hstep, hsteps⟩ := List.forall_mem_cons.mp h
      exact ih hsteps (hstep session hsession)

/-- Steps that merge keep every list at the start of the list that comes of it. -/
theorem values_run_isPrefix {session : Session kind} {steps : List (Step kind)}
    {field : Field} (hfield : field ∈ kind.fields)
    (h : ∀ step ∈ steps, ∀ session : Session kind, step.merged? session ≠ none) :
    session.message.values field.number <+:
      (session.run steps).message.values field.number := by
  refine run_of_step (P := fun later => session.message.values field.number <+:
    later.message.values field.number) (fun step hstep later hlater => ?_) (List.prefix_refl _)
  obtain ⟨input, hinput⟩ := Option.ne_none_iff_exists'.mp (h step hstep later)
  exact hlater.trans ((grows_step hinput).values_isPrefix hfield)

/-! ### In every state -/

/-- **What a step leaves behind.** Let a session be in any state. A record can be refused only in
some ways, and in none of them does it leave a trace; nor does a document that is not loaded. An
input that is merged up to a fault is cut in one way only into a document that is accepted and a
rest whose first record has that fault. The message of this document has been appended, and the
record at fault adds nothing to that. Whether it fails or not, a step that merges keeps all values
where they are; what it puts behind them stands in its input as a whole. So along every run of
such steps the lists only grow at their ends. -/
theorem step_after_fault (session : Session kind) :
    (∀ key bytes e, (session.step (.mergeField key bytes)).1 = .notMerged e →
      Wire.Refused kind Wire.nestingBudget key bytes e ∧
        (session.step (.mergeField key bytes)).2 = session) ∧
    (∀ bytes e, (session.step (.merge bytes)).1 = .notMerged e →
      ∃ before after read, bytes = before ++ after ∧ Wire.decode kind before = .ok read ∧
        Wire.readRecord kind Wire.nestingBudget after = .error e ∧
        Wire.mergeRecord Wire.nestingBudget (session.message.append read) after =
          (.error e, session.message.append read) ∧
        (∀ before' after' read' e', bytes = before' ++ after' →
          Wire.decode kind before' = .ok read' →
          Wire.readRecord kind Wire.nestingBudget after' = .error e' →
          before' = before ∧ after' = after) ∧
        (session.step (.merge bytes)).2 =
          { session with message := session.message.append read }) ∧
    (∀ format bytes e, (session.step (.load format bytes)).1 = .notLoaded e →
      (session.step (.load format bytes)).2 = session) ∧
    (∀ step input, Step.merged? session step = some input →
      Wire.Grows input session.message (session.step step).2.message) ∧
    (∀ steps : List (Step kind),
      (∀ step ∈ steps, ∀ other : Session kind, step.merged? other ≠ none) →
      ∀ field ∈ kind.fields, session.message.values field.number <+:
        (session.run steps).message.values field.number) := by
  refine ⟨fun key bytes e h => step_mergeField_of_notMerged h, fun bytes e h => ?_,
    fun format bytes e h => step_load_of_notLoaded h, fun step input h => grows_step h,
    fun steps h field hfield => values_run_isPrefix hfield h⟩
  obtain ⟨before, after, read, hbytes, hbefore, hafter, hsession⟩ := step_merge_of_notMerged h
  refine ⟨before, after, read, hbytes, hbefore, hafter,
    Wire.mergeRecord_eq_error_iff.mpr ⟨hafter, rfl⟩, ?_, hsession⟩
  intro before' after' read' e' hbytes' hbefore' hafter'
  exact Wire.split_unique hbefore' hbefore hafter' hafter (hbytes'.symm.trans hbytes)

/-- A record with the wrong layout changes nothing, nor does one whose bytes are text only at their
start, nor a document with a retired number. A string that is cut off behind a whole one leaves
the whole one, and is no part of what the next steps add. -/
theorem step_after_fault_data :
    (@step .data ⟨⟨["a"]⟩, ⟨["z"]⟩⟩ (.mergeField ⟨2, .varint⟩ [0x01])).2 =
      ⟨⟨["a"]⟩, ⟨["z"]⟩⟩ ∧
    (@step .data ⟨⟨["a"]⟩, ⟨["z"]⟩⟩ (.mergeField ⟨2, .lengthDelimited⟩ [0x02, 0x62, 0xff])).2 =
      ⟨⟨["a"]⟩, ⟨["z"]⟩⟩ ∧
    (∃ before after read, [0x12, 0x01, 0x62, 0x12, 0x02, 0x63] = before ++ after ∧
      Wire.decode .data before = .ok read ∧
      Wire.readRecord .data Wire.nestingBudget after =
        .error ⟨.data, some ⟨"example_splits", 2⟩, .underflow⟩ ∧
      (@step .data ⟨⟨["a"]⟩, ⟨["z"]⟩⟩ (.merge [0x12, 0x01, 0x62, 0x12, 0x02, 0x63])).2 =
        ⟨@Message.append .data ⟨["a"]⟩ read, ⟨["z"]⟩⟩) ∧
    (@step .data ⟨⟨["a"]⟩, ⟨["z"]⟩⟩ (.load .binary [0x1a, 0x00])).2 =
      ⟨⟨["a"]⟩, ⟨["z"]⟩⟩ ∧
    Wire.Grows [0x05, 0x12, 0x01, 0x62] (⟨["a"]⟩ : Message .data)
      (@step .data ⟨⟨["a"]⟩, ⟨["z"]⟩⟩ (.mergeDelimited [0x05, 0x12, 0x01, 0x62])).2.message ∧
    ["a"] <+: (@run .data ⟨⟨["a"]⟩, ⟨["z"]⟩⟩
      [.merge [0x12, 0x02, 0x63], .mergeStash]).message.exampleSplits := by
  obtain ⟨hfield, hmerge, hload, hgrows, hrun⟩ :=
    @step_after_fault .data ⟨⟨["a"]⟩, ⟨["z"]⟩⟩
  have hwrong : (@step .data ⟨⟨["a"]⟩, ⟨["z"]⟩⟩ (.mergeField ⟨2, .varint⟩ [0x01])).1 =
      .notMerged ⟨.data, some ⟨"example_splits", 2⟩, .wrongWireType .varint⟩ := rfl
  have hnoText : (@step .data ⟨⟨["a"]⟩, ⟨["z"]⟩⟩
      (.mergeField ⟨2, .lengthDelimited⟩ [0x02, 0x62, 0xff])).1 =
      .notMerged ⟨.data, some ⟨"example_splits", 2⟩, .notUtf8⟩ := by
    have herror : (@Wire.mergeField .data Wire.nestingBudget ⟨["a"]⟩ ⟨2, .lengthDelimited⟩
        [0x02, 0x62, 0xff]).1 = .error ⟨.data, some ⟨"example_splits", 2⟩, .notUtf8⟩ := by
      decide +kernel
    simp only [step, herror]
  have hcut : (@step .data ⟨⟨["a"]⟩, ⟨["z"]⟩⟩
      (.merge [0x12, 0x01, 0x62, 0x12, 0x02, 0x63])).1 =
      .notMerged ⟨.data, some ⟨"example_splits", 2⟩, .underflow⟩ := by
    have herror : (@Wire.merge .data ⟨["a"]⟩ [0x12, 0x01, 0x62, 0x12, 0x02, 0x63]).error? =
        some ⟨.data, some ⟨"example_splits", 2⟩, .underflow⟩ := by
      decide +kernel
    simp only [step, ofMerged, herror]
  have hretired : (@step .data ⟨⟨["a"]⟩, ⟨["z"]⟩⟩ (.load .binary [0x1a, 0x00])).1 =
      .notLoaded (.wire (.reservedField .data 3)) := by
    have hdecode : Document.decode .data .binary [0x1a, 0x00] =
        .error (.wire (.reservedField .data 3)) := by decide +kernel
    simp only [step, hdecode]
  obtain ⟨before, after, read, hbytes, hbefore, hafter, -, -, hsession⟩ := hmerge _ _ hcut
  have hsteps : ∀ step ∈ [Step.merge [0x12, 0x02, 0x63], Step.mergeStash],
      ∀ other : Session .data, step.merged? other ≠ none := by
    simp [Step.merged?]
  exact ⟨(hfield _ _ _ hwrong).2, (hfield _ _ _ hnoText).2,
    ⟨before, after, read, hbytes, hbefore, hafter, hsession⟩,
    hload _ _ _ hretired, hgrows (.mergeDelimited [0x05, 0x12, 0x01, 0x62]) _ rfl,
    hrun _ hsteps ⟨"example_splits", 2⟩ (by decide)⟩

end Session

end InferenceConfig
