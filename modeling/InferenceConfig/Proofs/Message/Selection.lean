import InferenceConfig.Message.Selection
import Mathlib.Data.List.Sort
import Mathlib.Data.String.Basic

/-!
# Selection by a Set of Names

The signature names of a model are stored as a list, but they select as a set. The distinct names
are inserted one by one into an ascending list, so what comes of it depends on the members of the
list only: an ascending list is determined by its members.

## Main definitions

* `SignatureSelection.names` — the names of the signatures that are run.

## Main results

* `mem_insertDistinct`, `pairwise_insertDistinct` — insertion into an ascending list;
* `ModelSpec.signatureSet_eq_iff` — the set of names is the ascending list of the same members;
* `ModelSpec.signatureSelection_eq_default_iff`, `ModelSpec.signatureSelection_eq_single_iff`,
  `ModelSpec.signatureSelection_eq_multi_iff` — which names are selected in which way;
* `ModelSpec.signatureSelection_eq_of_mem_iff` — lists with the same members select the same;
* `ModelSpec.isMultiHead_of_subset` — more names keep several heads.
-/

namespace InferenceConfig

/-! ### Insertion -/

/-- Inserting a name adds it, and loses none. -/
theorem mem_insertDistinct {name other : String} {names : List String} :
    other ∈ insertDistinct name names ↔ other = name ∨ other ∈ names := by
  induction names with
  | nil => rw [insertDistinct, List.mem_cons]
  | cons head rest ih =>
      rw [insertDistinct]
      split
      · exact List.mem_cons
      · split
        · next heq => rw [heq, List.mem_cons, ← or_assoc, or_self]
        · rw [List.mem_cons, ih, List.mem_cons, or_left_comm]

/-- Insertion keeps a list strictly ascending. Induction on the list: a name that is not below
the head and is not the head is above it. -/
theorem pairwise_insertDistinct {name : String} {names : List String}
    (h : names.Pairwise (· < ·)) : (insertDistinct name names).Pairwise (· < ·) := by
  induction names with
  | nil => exact List.pairwise_singleton _ name
  | cons head rest ih =>
      obtain ⟨hhead, hrest⟩ := List.pairwise_cons.mp h
      rw [insertDistinct]
      split
      · next hlt =>
          refine List.pairwise_cons.mpr ⟨List.forall_mem_cons.mpr ⟨hlt, ?_⟩, h⟩
          exact fun later hlater => lt_trans hlt (hhead later hlater)
      · next hnot =>
          split
          · exact h
          · next hne =>
              have hlt : head < name := lt_of_le_of_ne (not_lt.mp hnot) (Ne.symm hne)
              refine List.pairwise_cons.mpr ⟨fun later hlater => ?_, ih hrest⟩
              rcases mem_insertDistinct.mp hlater with rfl | hlater
              · exact hlt
              · exact hhead later hlater

/-- The names of the signatures that are run. -/
def SignatureSelection.names : SignatureSelection → List String
  | .default => ["serving_default"]
  | .single name => [name]
  | .multi names => names

namespace ModelSpec

variable {spec first second : ModelSpec} {name : String} {names : List String}

/-! ### The set of names -/

/-- The set has the names of the list. -/
theorem mem_signatureSet : name ∈ spec.signatureSet ↔ name ∈ spec.signatureNames := by
  rw [signatureSet]
  induction spec.signatureNames with
  | nil => rfl
  | cons head rest ih => rw [List.foldr_cons, mem_insertDistinct, ih, List.mem_cons]

/-- The set is strictly ascending. -/
theorem pairwise_signatureSet (spec : ModelSpec) : spec.signatureSet.Pairwise (· < ·) := by
  rw [signatureSet]
  induction spec.signatureNames with
  | nil => exact List.Pairwise.nil
  | cons head rest ih =>
      rw [List.foldr_cons]
      exact pairwise_insertDistinct ih

/-- The set of names is the only ascending list with the same members. -/
theorem signatureSet_eq_iff :
    spec.signatureSet = names ↔
      names.Pairwise (· < ·) ∧ ∀ name, name ∈ names ↔ name ∈ spec.signatureNames := by
  constructor
  · rintro rfl
    exact ⟨pairwise_signatureSet spec, fun name => mem_signatureSet⟩
  · rintro ⟨hascending, hmem⟩
    refine (pairwise_signatureSet spec).eq_of_mem_iff hascending fun name => ?_
    rw [mem_signatureSet, hmem]

/-! ### The selection -/

/-- The default is selected exactly if no signature is named. -/
theorem signatureSelection_eq_default_iff :
    spec.signatureSelection = .default ↔ spec.signatureNames = [] := by
  have hset : spec.signatureSelection = .default ↔ spec.signatureSet = [] := by
    rw [signatureSelection]
    split
    · next hnil => simp [hnil]
    · next only hone => simp [hone]
    · next hnil _ => exact ⟨nofun, fun h => (hnil h).elim⟩
  rw [hset, signatureSet_eq_iff, List.eq_nil_iff_forall_not_mem]
  simp

/-- A single head is selected exactly if its name is the only one that is given. -/
theorem signatureSelection_eq_single_iff :
    spec.signatureSelection = .single name ↔
      spec.signatureNames ≠ [] ∧ ∀ entry ∈ spec.signatureNames, entry = name := by
  have hset : spec.signatureSelection = .single name ↔ spec.signatureSet = [name] := by
    rw [signatureSelection]
    split
    · next hnil => simp [hnil]
    · next only hone => simp [hone]
    · next hone => exact ⟨nofun, fun h => (hone name h).elim⟩
  rw [hset, signatureSet_eq_iff]
  simp only [List.mem_singleton]
  constructor
  · rintro ⟨-, hmem⟩
    exact ⟨List.ne_nil_of_mem ((hmem name).mp rfl), fun entry hentry => (hmem entry).mpr hentry⟩
  · rintro ⟨hne, hall⟩
    obtain ⟨entry, hentry⟩ := List.exists_mem_of_ne_nil _ hne
    refine ⟨List.pairwise_singleton _ name, fun other => ⟨?_, hall other⟩⟩
    rintro rfl
    exact hall entry hentry ▸ hentry

/-- Several signatures are selected exactly if two names differ, and then all of them in ascending
order. -/
theorem signatureSelection_eq_multi_iff :
    spec.signatureSelection = .multi names ↔
      (∃ one ∈ spec.signatureNames, ∃ other ∈ spec.signatureNames, one ≠ other) ∧
        names.Pairwise (· < ·) ∧ ∀ name, name ∈ names ↔ name ∈ spec.signatureNames := by
  have hmem (name : String) : name ∈ spec.signatureNames ↔ name ∈ spec.signatureSet :=
    mem_signatureSet.symm
  rw [← signatureSet_eq_iff, signatureSelection]
  simp only [hmem]
  -- Two members of the set differ exactly if the set is neither empty nor a single name.
  split
  · next hnil => simp [hnil]
  · next name hsingle => simp [hsingle]
  · next hnil hsingle =>
      rw [SignatureSelection.multi.injEq, iff_and_self]
      intro _
      have hascending := pairwise_signatureSet spec
      match hset : spec.signatureSet with
      | [] => exact absurd hset hnil
      | [name] => exact absurd hset (hsingle name)
      | one :: other :: rest =>
          rw [hset] at hascending
          exact ⟨one, List.mem_cons_self, other, List.mem_cons_of_mem _ List.mem_cons_self,
            ne_of_lt (List.rel_of_pairwise_cons hascending List.mem_cons_self)⟩

/-- Several heads are selected exactly if there are two different names. -/
theorem exists_signatureSelection_eq_multi_iff :
    (∃ names, spec.signatureSelection = .multi names) ↔
      ∃ one ∈ spec.signatureNames, ∃ other ∈ spec.signatureNames, one ≠ other := by
  constructor
  · rintro ⟨names, hnames⟩
    exact (signatureSelection_eq_multi_iff.mp hnames).1
  · intro h
    exact ⟨spec.signatureSet, signatureSelection_eq_multi_iff.mpr
      ⟨h, signatureSet_eq_iff.mp rfl⟩⟩

/-- There are several heads exactly if two names differ. -/
theorem isMultiHead_iff :
    spec.isMultiHead = true ↔
      ∃ one ∈ spec.signatureNames, ∃ other ∈ spec.signatureNames, one ≠ other := by
  rw [← exists_signatureSelection_eq_multi_iff, isMultiHead]
  cases spec.signatureSelection <;> simp

/-- The names that are run have the members of the selection. -/
theorem mem_effectiveSignatureNames :
    name ∈ spec.effectiveSignatureNames ↔ name ∈ spec.signatureSelection.names := by
  rw [effectiveSignatureNames]
  cases hselection : spec.signatureSelection with
  | default =>
      rw [signatureSelection_eq_default_iff] at hselection
      rw [hselection]
      rfl
  | single only =>
      obtain ⟨hne, hall⟩ := signatureSelection_eq_single_iff.mp hselection
      obtain ⟨entry, hentry⟩ := List.exists_mem_of_ne_nil _ hne
      rw [if_neg (by rwa [List.isEmpty_iff]), SignatureSelection.names, List.mem_singleton]
      refine ⟨hall name, ?_⟩
      rintro rfl
      exact hall entry hentry ▸ hentry
  | multi names =>
      obtain ⟨⟨one, hone, -⟩, -, hmem⟩ := signatureSelection_eq_multi_iff.mp hselection
      rw [if_neg (by rw [List.isEmpty_iff]; exact List.ne_nil_of_mem hone),
        SignatureSelection.names, hmem]

/-! ### Only members matter -/

/-- The set depends only on which names there are. -/
theorem signatureSet_eq_of_mem_iff
    (h : ∀ name, name ∈ first.signatureNames ↔ name ∈ second.signatureNames) :
    first.signatureSet = second.signatureSet :=
  signatureSet_eq_iff.mpr ⟨pairwise_signatureSet second, fun name => by
    rw [mem_signatureSet, h]⟩

/-- Lists of names with the same members select the same. -/
theorem signatureSelection_eq_of_mem_iff
    (h : ∀ name, name ∈ first.signatureNames ↔ name ∈ second.signatureNames) :
    first.signatureSelection = second.signatureSelection := by
  rw [signatureSelection, signatureSelection, signatureSet_eq_of_mem_iff h]

/-- More names keep several heads. -/
theorem isMultiHead_of_subset (h : first.signatureNames ⊆ second.signatureNames)
    (hfirst : first.isMultiHead = true) : second.isMultiHead = true := by
  obtain ⟨one, hone, other, hother, hne⟩ := isMultiHead_iff.mp hfirst
  exact isMultiHead_iff.mpr ⟨one, h hone, other, h hother, hne⟩

end ModelSpec

end InferenceConfig
