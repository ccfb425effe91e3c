import InferenceConfig.Document.Report
import InferenceConfig.Proofs.Message.Selection
import InferenceConfig.Proofs.Text.Quoted

/-!
# Summaries Identify What is Selected

The summary of a message is written for a reader, yet nothing is lost in it. It names the heads by
one of three phrases, and the tags stand on the line below. The phrases differ in their first
character, or in the one behind `single-head (`, and every name is quoted, so no name ends its
phrase or passes for another one. Messages that print alike select alike.

## Main definitions

* `SignatureSelection.phrase` — the words for the heads.

## Main results

* `ModelSpec.summary_eq` — the summary is written from the selection and the tags alone;
* `SignatureSelection.phrase_append_inj` — the words determine the selection, and their end;
* `ModelSpec.summary_eq_iff`, `DataSpec.summary_eq_iff` — which messages print alike;
* `Message.summary_identifies_selection` — the same for both kinds.
-/

namespace InferenceConfig

/-! ### The words for the heads -/

/-- The words for the heads that are run. -/
def SignatureSelection.phrase : SignatureSelection → String
  | .default =>
    "single-head (default signature " ++ Quoted.ofString ModelSpec.defaultSignatureName ++ ")"
  | .single name => "single-head (" ++ Quoted.ofString name ++ ")"
  | .multi names => "multi-head " ++ Quoted.ofList names

namespace SignatureSelection

/-- What is shown for the default signature. -/
theorem phrase_default :
    phrase .default =
      "single-head (default signature " ++ Quoted.ofString ModelSpec.defaultSignatureName ++ ")" :=
  rfl

/-- What is shown for one signature. -/
theorem phrase_single (name : String) :
    phrase (.single name) = "single-head (" ++ Quoted.ofString name ++ ")" :=
  rfl

/-- What is shown for several signatures. -/
theorem phrase_multi (names : List String) :
    phrase (.multi names) = "multi-head " ++ Quoted.ofList names :=
  rfl

/-- Behind `single-head (` the phrase of the default goes on with a letter. -/
theorem exists_toList_phrase_default :
    ∃ later, (phrase .default).toList = "single-head (".toList ++ 'd' :: later := by
  have hwords : "single-head (default signature ".toList =
      "single-head (".toList ++ 'd' :: "efault signature ".toList := by decide +kernel
  rw [phrase_default]
  simp only [String.toList_append, List.append_assoc]
  rw [hwords, List.append_assoc]
  exact ⟨_, rfl⟩

/-- Behind `single-head (` the phrase of a name goes on with the quoted name. -/
theorem toList_phrase_single (name : String) :
    (phrase (.single name)).toList =
      "single-head (".toList ++ ((Quoted.ofString name).toList ++ [')']) := by
  rw [phrase_single]
  simp only [String.toList_append, List.append_assoc]
  rfl

/-- The phrase for several signatures, as characters. -/
theorem toList_phrase_multi (names : List String) :
    (phrase (.multi names)).toList = "multi-head ".toList ++ (Quoted.ofList names).toList := by
  rw [phrase_multi]
  simp only [String.toList_append]

/-- The phrase of several heads begins with a letter of its own. -/
theorem single_append_ne_multi_append (rest rest' : List Char) :
    "single-head (".toList ++ rest ≠ "multi-head ".toList ++ rest' :=
  fun h => absurd (List.cons.inj h).1 (by decide)

/-- The words for the default are those for no name, whatever follows. -/
theorem phrase_default_append_ne (name : String) (rest rest' : List Char) :
    (phrase .default).toList ++ rest ≠ (phrase (.single name)).toList ++ rest' := by
  obtain ⟨later, hdefault⟩ := exists_toList_phrase_default
  obtain ⟨quoted, hquoted⟩ := Quoted.exists_toList_ofString name
  rw [hdefault, toList_phrase_single, hquoted, List.append_assoc, List.append_assoc, Ne,
    List.append_cancel_left_eq]
  exact fun h => absurd (List.cons.inj h).1 (by decide)

/-- The words for several heads are those for no other selection, whatever follows. -/
theorem phrase_multi_append_ne {selection : SignatureSelection} (names : List String)
    (rest rest' : List Char) (h : ∀ names, selection ≠ .multi names) :
    (phrase selection).toList ++ rest ≠ (phrase (.multi names)).toList ++ rest' := by
  rw [toList_phrase_multi, List.append_assoc]
  cases selection with
  | default =>
      obtain ⟨later, hdefault⟩ := exists_toList_phrase_default
      rw [hdefault, List.append_assoc]
      exact single_append_ne_multi_append _ _
  | single name =>
      rw [toList_phrase_single, List.append_assoc]
      exact single_append_ne_multi_append _ _
  | multi names => exact absurd rfl (h names)

/-- A phrase shows the selection and where it ends: no two of the three sorts start alike, and the
names are quoted. -/
theorem phrase_append_inj {first second : SignatureSelection} {rest rest' : List Char}
    (happend : (phrase first).toList ++ rest = (phrase second).toList ++ rest') :
    first = second ∧ rest = rest' := by
  cases first with
  | default =>
      cases second with
      | default => exact ⟨rfl, List.append_cancel_left happend⟩
      | single name => exact absurd happend (phrase_default_append_ne name _ _)
      | multi names => exact absurd happend (phrase_multi_append_ne names _ _ nofun)
  | single name =>
      cases second with
      | default => exact absurd happend.symm (phrase_default_append_ne name _ _)
      | single other =>
          have hquoted := (Quoted.selfDelimiting_ofString.append_right [')']).append_left
            "single-head (".toList
          rw [toList_phrase_single, toList_phrase_single] at happend
          obtain ⟨rfl, hrest⟩ := hquoted happend
          exact ⟨rfl, hrest⟩
      | multi names => exact absurd happend (phrase_multi_append_ne names _ _ nofun)
  | multi names =>
      cases second with
      | default => exact absurd happend.symm (phrase_multi_append_ne names _ _ nofun)
      | single name => exact absurd happend.symm (phrase_multi_append_ne names _ _ nofun)
      | multi others =>
          rw [toList_phrase_multi, toList_phrase_multi] at happend
          obtain ⟨rfl, hrest⟩ :=
            (Quoted.selfDelimiting_ofList.append_left "multi-head ".toList) happend
          exact ⟨rfl, hrest⟩

end SignatureSelection

/-! ### The summary of a model -/

namespace ModelSpec

variable {first second : ModelSpec}

/-- The summary is written from the selection and the tags alone. -/
theorem summary_eq (spec : ModelSpec) :
    spec.summary =
      "heads: " ++ spec.signatureSelection.phrase ++ "\ntags: " ++
        Quoted.ofList spec.effectiveTags := by
  rw [summary]
  cases hselection : spec.signatureSelection with
  | default =>
      have hnames : spec.effectiveSignatureNames = [defaultSignatureName] := by
        rw [effectiveSignatureNames, signatureSelection_eq_default_iff.mp hselection]
        rfl
      rw [hnames, SignatureSelection.phrase_default]
      rfl
  | single name => rfl
  | multi names => rfl

/-- Summaries of models are equal exactly if the selected heads and the loaded tags are. -/
theorem summary_eq_iff :
    first.summary = second.summary ↔
      first.signatureSelection = second.signatureSelection ∧
        first.effectiveTags = second.effectiveTags := by
  rw [summary_eq, summary_eq]
  constructor
  · intro h
    have hlist := congrArg String.toList h
    simp only [String.toList_append, List.append_assoc, List.append_cancel_left_eq] at hlist
    obtain ⟨hselection, htags⟩ := SignatureSelection.phrase_append_inj hlist
    have hlists := String.toList_inj.mp (List.append_cancel_left htags)
    exact ⟨hselection, Quoted.ofList_injective hlists⟩
  · rintro ⟨hselection, htags⟩
    rw [hselection, htags]

/-- Models that select different heads are not shown alike. -/
theorem summary_ne_of_selection (h : first.signatureSelection ≠ second.signatureSelection) :
    first.summary ≠ second.summary :=
  fun hsummary => h (summary_eq_iff.mp hsummary).1

end ModelSpec

/-! ### The summary of the data -/

namespace DataSpec

variable {first second : DataSpec}

/-- Without splits, all of them are shown. -/
theorem summary_of_nil {spec : DataSpec} (h : spec.exampleSplits = []) :
    spec.summary = "splits: " ++ "all" := by
  rw [summary, processesAllSplits, h]
  rfl

/-- Splits that are selected are listed. -/
theorem summary_of_ne_nil {spec : DataSpec} (h : spec.exampleSplits ≠ []) :
    spec.summary = "splits: " ++ Quoted.ofList spec.exampleSplits := by
  rw [summary, processesAllSplits, if_neg (by rwa [List.isEmpty_iff])]

/-- No list of splits is shown like the remark that all are processed. -/
theorem summary_eq_all_iff {spec : DataSpec} :
    spec.summary = "splits: " ++ "all" ↔ spec.exampleSplits = [] := by
  refine ⟨fun h => ?_, summary_of_nil⟩
  by_contra hne
  obtain ⟨later, hlist⟩ := Quoted.exists_toList_ofList spec.exampleSplits
  rw [summary_of_ne_nil hne, ← String.toList_inj, String.toList_append, String.toList_append,
    List.append_cancel_left_eq, hlist] at h
  exact absurd (List.cons.inj h).1 (by decide)

/-- Summaries of data are equal exactly if the named splits are. -/
theorem summary_eq_iff :
    first.summary = second.summary ↔ first.exampleSplits = second.exampleSplits := by
  constructor
  · intro h
    by_cases hfirst : first.exampleSplits = []
    · rw [summary_of_nil hfirst, eq_comm, summary_eq_all_iff] at h
      rw [hfirst, h]
    · have hsecond : second.exampleSplits ≠ [] := by
        rwa [Ne, ← summary_eq_all_iff, ← h, summary_eq_all_iff]
      rw [summary_of_ne_nil hfirst, summary_of_ne_nil hsecond, ← String.toList_inj,
        String.toList_append, String.toList_append, List.append_cancel_left_eq,
        String.toList_inj] at h
      exact Quoted.ofList_injective h
  · intro h
    rw [summary, summary, processesAllSplits, processesAllSplits, h]

end DataSpec

/-! ### Both kinds -/

/-- **Summaries identify what is selected.** Those of models are equal exactly if the selected heads
and the loaded tags are. So whatever the names are, the default, a single head and several heads
are never shown alike. Summaries of data are equal exactly if the named splits are, and only data
that names no split is summed up as `all`. -/
theorem Message.summary_identifies_selection :
    (∀ first second : ModelSpec,
      first.summary = second.summary ↔
        first.signatureSelection = second.signatureSelection ∧
          first.effectiveTags = second.effectiveTags) ∧
    (∀ (bare one many : ModelSpec) name names, bare.signatureSelection = .default →
      one.signatureSelection = .single name → many.signatureSelection = .multi names →
      bare.summary ≠ one.summary ∧ bare.summary ≠ many.summary ∧ one.summary ≠ many.summary) ∧
    (∀ first second : DataSpec,
      first.summary = second.summary ↔ first.exampleSplits = second.exampleSplits) ∧
    ∀ spec : DataSpec, spec.summary = "splits: all" ↔ spec.exampleSplits = [] := by
  refine ⟨fun _ _ => ModelSpec.summary_eq_iff, ?_, fun _ _ => DataSpec.summary_eq_iff,
    fun _ => DataSpec.summary_eq_all_iff⟩
  intro bare one many name names hbare hone hmany
  exact ⟨ModelSpec.summary_ne_of_selection (by simp [hbare, hone]),
    ModelSpec.summary_ne_of_selection (by simp [hbare, hmany]),
    ModelSpec.summary_ne_of_selection (by simp [hone, hmany])⟩

/-- A head that is named by the words for the default, a list of names in one name, and a split
that is named `all`. -/
theorem Message.summary_identifies_selection_quoted :
    ModelSpec.summary ⟨[], []⟩ ≠ ModelSpec.summary ⟨["default signature"], []⟩ ∧
      ModelSpec.summary ⟨[], []⟩ ≠ ModelSpec.summary ⟨["a", "b"], []⟩ ∧
      ModelSpec.summary ⟨["a\x22, \x22b"], []⟩ ≠ ModelSpec.summary ⟨["a", "b"], []⟩ ∧
      DataSpec.summary ⟨["all"]⟩ ≠ "splits: all" := by
  obtain ⟨-, hheads, -, hall⟩ := Message.summary_identifies_selection
  have hmulti : ModelSpec.signatureSelection ⟨["a", "b"], []⟩ = .multi ["a", "b"] := by decide
  obtain ⟨hone, hmany, -⟩ := hheads ⟨[], []⟩ ⟨["default signature"], []⟩ _ _ _ rfl rfl hmulti
  obtain ⟨-, -, hquoted⟩ := hheads ⟨[], []⟩ ⟨["a\x22, \x22b"], []⟩ _ _ _ rfl rfl hmulti
  exact ⟨hone, hmany, hquoted, fun h => absurd ((hall _).mp h) (by decide)⟩

end InferenceConfig
