import InferenceConfig.Proofs.Message.Selection
import InferenceConfig.Proofs.Session

/-!
# The Heads of a Model Along a Session

A session adds names to a message by steps of its own and by merging records, and either way they
only come behind the names that are there. The selection depends on the set of names, and this
set only grows along such a run, whether its steps fail or not. So a model that is run with
several heads keeps them.

## Main definitions

* `Session.Step.Adds` — the steps that add values to the message, if they change it at all.

## Main results

* `Session.values_step_isPrefix` — what a step that adds does to a list;
* `Session.isMultiHead_run` — a run of such steps keeps several heads;
* `ModelSpec.signatureSelection_by_set` — the selection as a function of the set of names.
-/

namespace InferenceConfig

namespace Session

/-- The steps that add values to the message, or fail to do so. -/
inductive Step.Adds : {kind : Kind} → Step kind → Prop
  | signatureName (name : String) : Adds (.addSignatureName name)
  | tag (tag : String) : Adds (.addTag tag)
  | split (split : String) : Adds (.addSplit split)
  | merge {kind : Kind} (bytes : List UInt8) : Adds (.merge bytes : Step kind)
  | mergeDelimited {kind : Kind} (bytes : List UInt8) : Adds (.mergeDelimited bytes : Step kind)
  | mergeField {kind : Kind} (key : Key) (bytes : List UInt8) :
      Adds (.mergeField key bytes : Step kind)
  | mergeStash {kind : Kind} : Adds (.mergeStash : Step kind)

/-- A step that adds keeps every list at the start of the list that comes of it. -/
theorem values_step_isPrefix {kind : Kind} {step : Step kind} (h : step.Adds)
    (session : Session kind) {field : Field} (hfield : field ∈ kind.fields) :
    session.message.values field.number <+:
      (session.step step).2.message.values field.number := by
  cases h with
  | signatureName name =>
      simp only [Kind.fields, List.mem_cons, List.not_mem_nil, or_false] at hfield
      rcases hfield with rfl | rfl
      · exact List.prefix_append _ [name]
      · exact List.prefix_refl _
  | tag tag =>
      simp only [Kind.fields, List.mem_cons, List.not_mem_nil, or_false] at hfield
      rcases hfield with rfl | rfl
      · exact List.prefix_refl _
      · exact List.prefix_append _ [tag]
  | split split =>
      simp only [Kind.fields, List.mem_cons, List.not_mem_nil, or_false] at hfield
      subst hfield
      exact List.prefix_append _ [split]
  | merge bytes => exact (grows_step rfl).values_isPrefix hfield
  | mergeDelimited bytes => exact (grows_step rfl).values_isPrefix hfield
  | mergeField key bytes => exact (grows_step rfl).values_isPrefix hfield
  | mergeStash => exact (grows_step rfl).values_isPrefix hfield

/-- A model that is run with several heads keeps them along a run of steps that add. -/
theorem isMultiHead_run {session : Session .model} {steps : List (Step .model)}
    (h : ∀ step ∈ steps, step.Adds) (hheads : ModelSpec.isMultiHead session.message = true) :
    ModelSpec.isMultiHead (session.run steps).message = true := by
  refine run_of_step (P := fun later : Session .model => ModelSpec.isMultiHead later.message = true)
    (fun step hstep later hlater => ?_) hheads
  have hnames : (⟨"model_signature_name", 2⟩ : Field) ∈ Kind.model.fields := List.mem_cons_self
  exact ModelSpec.isMultiHead_of_subset
    (values_step_isPrefix (h step hstep) later hnames).subset hlater

end Session

/-- **The selection is a function of the set of names.** No name selects the default, one name,
however often it is given, selects a single head, and two different names select several heads:
the names in ascending order, each of them once. So lists with the same members select the same,
in whatever order and with whatever repetitions. The signatures that are run are the names that
are selected, or the default one. Steps that add names or merge records never turn several heads
into one, whether they fail or not. -/
theorem ModelSpec.signatureSelection_by_set :
    (∀ spec : ModelSpec,
      (spec.signatureSelection = .default ↔ spec.signatureNames = []) ∧
      (∀ name, spec.signatureSelection = .single name ↔
        spec.signatureNames ≠ [] ∧ ∀ entry ∈ spec.signatureNames, entry = name) ∧
      ((∃ names, spec.signatureSelection = .multi names) ↔
        ∃ one ∈ spec.signatureNames, ∃ other ∈ spec.signatureNames, one ≠ other) ∧
      (∀ names, spec.signatureSelection = .multi names →
        names.Pairwise (· < ·) ∧ ∀ name, name ∈ names ↔ name ∈ spec.signatureNames) ∧
      (spec.isMultiHead = true ↔
        ∃ one ∈ spec.signatureNames, ∃ other ∈ spec.signatureNames, one ≠ other) ∧
      (∀ name, name ∈ spec.effectiveSignatureNames ↔ name ∈ spec.signatureSelection.names)) ∧
    (∀ first second : ModelSpec,
      (∀ name, name ∈ first.signatureNames ↔ name ∈ second.signatureNames) →
      first.signatureSelection = second.signatureSelection ∧
        first.signatureSet = second.signatureSet ∧ first.isMultiHead = second.isMultiHead) ∧
    (∀ (session : Session .model) (steps : List (Session.Step .model)),
      (∀ step ∈ steps, step.Adds) → ModelSpec.isMultiHead session.message = true →
      ModelSpec.isMultiHead (session.run steps).message = true) := by
  refine ⟨fun spec => ⟨signatureSelection_eq_default_iff,
      fun name => signatureSelection_eq_single_iff, exists_signatureSelection_eq_multi_iff,
      fun names hnames => (signatureSelection_eq_multi_iff.mp hnames).2, isMultiHead_iff,
      fun name => mem_effectiveSignatureNames⟩,
    fun first second h => ?_, fun session steps h hheads => Session.isMultiHead_run h hheads⟩
  have hselection := signatureSelection_eq_of_mem_iff h
  exact ⟨hselection, signatureSet_eq_of_mem_iff h, by rw [isMultiHead, isMultiHead, hselection]⟩

/-- Two lists of the same two names select the same heads. The heads stay two when another name is
added, and when records are merged of which the second one is cut off. -/
theorem ModelSpec.signatureSelection_by_set_repeated :
    (⟨["b", "a", "b"], []⟩ : ModelSpec).signatureSelection =
        (⟨["a", "b"], ["gpu"]⟩ : ModelSpec).signatureSelection ∧
      ModelSpec.isMultiHead (@Session.run .model ⟨⟨["a", "b"], []⟩, ⟨[], []⟩⟩
        [.addSignatureName "a", .merge [0x12, 0x01, 0x63, 0x12, 0x02, 0x64]]).message = true := by
  obtain ⟨-, hsame, hrun⟩ := ModelSpec.signatureSelection_by_set
  have hmem : ∀ name, name ∈ ["b", "a", "b"] ↔ name ∈ ["a", "b"] := by
    intro name
    simp only [List.mem_cons, List.not_mem_nil, or_false]
    rw [or_left_comm, or_self]
  refine ⟨(hsame _ _ hmem).1, hrun _ _ ?_ (by decide)⟩
  exact List.forall_mem_cons.mpr ⟨.signatureName "a", List.forall_mem_singleton.mpr (.merge _)⟩

end InferenceConfig
