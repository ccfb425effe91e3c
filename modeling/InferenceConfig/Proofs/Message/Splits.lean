import InferenceConfig.Message.Selection
import InferenceConfig.Proofs.Wire.Merging

/-!
# Filters on Splits

A `DataSpec` processes the splits that it names, and all splits if it names none. Neither the
order of the names nor their repetitions matter, so two filters with the same names process the
same splits.

Merging appends one list of names to the other. Because a filter without names processes
everything, a merge need not process more than what went into it: a name that is added to an
empty list takes all other splits away. Two filters that both name splits process, once merged,
what either of them processes; a filter that names none leaves the other one as it was.

## Main results

* `DataSpec.includes_iff` — the splits that are processed;
* `DataSpec.includes_congr` — only the set of names matters;
* `DataSpec.select_select` — what is selected is selected again;
* `DataSpec.includes_append`, `DataSpec.includes_append_of_nil_left`,
  `DataSpec.includes_append_of_nil_right` — what appended filters process;
* `DataSpec.select_append` — what they select;
* `DataSpec.select_merged` — filters that are merged as documents.
-/

namespace InferenceConfig

namespace DataSpec

variable {spec first second : DataSpec} {split : String}

/-! ### One filter -/

/-- A split is included if it is listed, or if none is. -/
theorem includes_iff :
    spec.includes split = true ↔ spec.exampleSplits = [] ∨ split ∈ spec.exampleSplits := by
  rw [includes, processesAllSplits, Bool.or_eq_true, List.isEmpty_iff, List.contains_iff_mem]

/-- Filters that name the same splits process the same ones. Without names both process all. -/
theorem includes_congr
    (h : ∀ split, split ∈ first.exampleSplits ↔ split ∈ second.exampleSplits) :
    first.includes = second.includes := by
  have hnil : first.exampleSplits = [] ↔ second.exampleSplits = [] := by
    simp only [List.eq_nil_iff_forall_not_mem, h]
  funext split
  rw [Bool.eq_iff_iff, includes_iff, includes_iff, hnil, h]

/-- Without a list, all splits that are available are selected. -/
theorem select_of_nil (h : spec.exampleSplits = []) (available : List String) :
    spec.select available = available :=
  List.filter_eq_self.mpr fun _ _ => includes_iff.mpr (.inl h)

/-- With a list, those splits are selected that are on it. -/
theorem select_of_ne_nil (h : spec.exampleSplits ≠ []) (available : List String) :
    spec.select available = available.filter fun split => split ∈ spec.exampleSplits := by
  refine List.filter_congr fun split _ => ?_
  rw [Bool.eq_iff_iff, includes_iff, decide_eq_true_iff, or_iff_right h]

/-- What is selected is selected again. -/
theorem select_select (spec : DataSpec) (available : List String) :
    spec.select (spec.select available) = spec.select available := by
  rw [select, select, List.filter_filter]
  simp only [Bool.and_self]

/-! ### Appended filters -/

/-- After merging, the splits of both are listed. -/
theorem mem_exampleSplits_append :
    split ∈ DataSpec.exampleSplits (@Message.append .data first second) ↔
      split ∈ first.exampleSplits ∨ split ∈ second.exampleSplits :=
  List.mem_append

/-- After merging, none is listed exactly if neither listed any. -/
theorem exampleSplits_append_eq_nil_iff :
    DataSpec.exampleSplits (@Message.append .data first second) = [] ↔
      first.exampleSplits = [] ∧ second.exampleSplits = [] :=
  List.append_eq_nil_iff

/-- Two filters that both name splits process what either of them processes. -/
theorem includes_append (hfirst : first.exampleSplits ≠ []) (hsecond : second.exampleSplits ≠ [])
    (split : String) :
    DataSpec.includes (@Message.append .data first second) split =
      (first.includes split || second.includes split) := by
  rw [Bool.eq_iff_iff, Bool.or_eq_true, includes_iff, includes_iff, includes_iff,
    exampleSplits_append_eq_nil_iff, mem_exampleSplits_append, or_iff_right hfirst,
    or_iff_right hsecond, or_iff_right fun h => hfirst h.1]

/-- A filter without names leaves the one behind it as it is. -/
theorem includes_append_of_nil_left (h : first.exampleSplits = []) :
    DataSpec.includes (@Message.append .data first second) = second.includes :=
  includes_congr fun split => by
    rw [mem_exampleSplits_append, h, or_iff_right List.not_mem_nil]

/-- A filter without names leaves the one before it as it is. -/
theorem includes_append_of_nil_right (h : second.exampleSplits = []) :
    DataSpec.includes (@Message.append .data first second) = first.includes :=
  includes_congr fun split => by
    rw [mem_exampleSplits_append, h, or_iff_left List.not_mem_nil]

/-- Appended filters select everything if none of them names a split, and otherwise what one of
them names. -/
theorem select_append (first second : DataSpec) (available : List String) :
    DataSpec.select (@Message.append .data first second) available =
      if first.exampleSplits = [] ∧ second.exampleSplits = [] then available
      else available.filter fun split =>
        split ∈ first.exampleSplits ∨ split ∈ second.exampleSplits := by
  split
  · next hnil => exact select_of_nil (exampleSplits_append_eq_nil_iff.mpr hnil) available
  · next hnil =>
      rw [select_of_ne_nil fun h => hnil (exampleSplits_append_eq_nil_iff.mp h)]
      simp only [mem_exampleSplits_append]

/-- The order in which filters are appended does not matter. -/
theorem select_append_comm (first second : DataSpec) (available : List String) :
    DataSpec.select (@Message.append .data first second) available =
      DataSpec.select (@Message.append .data second first) available := by
  have hincludes : DataSpec.includes (@Message.append .data first second) =
      DataSpec.includes (@Message.append .data second first) :=
    includes_congr fun split => by rw [mem_exampleSplits_append, mem_exampleSplits_append, or_comm]
  rw [select, select, hincludes]

/-! ### Merged documents -/

/-- **Merged filters select the union.** Let all names have lengths of at most 64 bits. The
document of either filter can be merged into the other filter. The outcome selects every available
split if neither of them names one; otherwise it selects what one of them names, in the order and
with the repetitions of what is available. So it processes what either of them processes if both
name splits, and what the one processes if the other names none. The order of merging does not
matter for what is selected, and what is selected is selected again. -/
theorem select_merged (hfirst : @Wire.LengthsFit .data first)
    (hsecond : @Wire.LengthsFit .data second) :
    ∃ merged swapped : DataSpec,
      @Wire.merge .data first (@Wire.encode .data second) = ⟨merged, none⟩ ∧
      @Wire.merge .data second (@Wire.encode .data first) = ⟨swapped, none⟩ ∧
      (∀ available, merged.select available =
        if first.exampleSplits = [] ∧ second.exampleSplits = [] then available
        else available.filter fun split =>
          split ∈ first.exampleSplits ∨ split ∈ second.exampleSplits) ∧
      (first.exampleSplits ≠ [] → second.exampleSplits ≠ [] →
        ∀ split, merged.includes split = (first.includes split || second.includes split)) ∧
      (first.exampleSplits = [] → ∀ split, merged.includes split = second.includes split) ∧
      (second.exampleSplits = [] → ∀ split, merged.includes split = first.includes split) ∧
      (∀ available, merged.select available = swapped.select available) ∧
      ∀ available, merged.select (merged.select available) = merged.select available := by
  refine ⟨@Message.append .data first second, @Message.append .data second first,
    Wire.merge_encode_iff.mpr hsecond, Wire.merge_encode_iff.mpr hfirst,
    select_append first second, includes_append, fun hnil split => ?_, fun hnil split => ?_,
    select_append_comm first second, select_select _⟩
  · rw [includes_append_of_nil_left hnil]
  · rw [includes_append_of_nil_right hnil]

/-- Two filters with a name in common and repeated ones, on available splits that are repeated
too; and the same filter merged with one that names nothing. -/
theorem select_merged_repeated :
    (∃ merged swapped : DataSpec,
      @Wire.merge .data ⟨["eval", "train", "eval"]⟩ (@Wire.encode .data ⟨["größe", "eval"]⟩) =
        ⟨merged, none⟩ ∧
      @Wire.merge .data ⟨["größe", "eval"]⟩ (@Wire.encode .data ⟨["eval", "train", "eval"]⟩) =
        ⟨swapped, none⟩ ∧
      merged.select ["größe", "test", "train", "größe"] = ["größe", "train", "größe"] ∧
      swapped.select ["größe", "test", "train", "größe"] = ["größe", "train", "größe"] ∧
      merged.includes "test" = false) ∧
    ∃ merged : DataSpec,
      @Wire.merge .data ⟨[]⟩ (@Wire.encode .data ⟨["größe", "eval"]⟩) = ⟨merged, none⟩ ∧
      merged.includes "train" = false := by
  have hfirst : @Wire.LengthsFit .data ⟨["eval", "train", "eval"]⟩ := by
    unfold Wire.LengthsFit
    decide
  have hsecond : @Wire.LengthsFit .data ⟨["größe", "eval"]⟩ := by
    unfold Wire.LengthsFit
    decide
  obtain ⟨merged, swapped, hmerged, hswapped, hselect, hboth, -, -, hcomm, -⟩ :=
    select_merged hfirst hsecond
  obtain ⟨filled, -, hfilled, -, -, -, hempty, -⟩ :=
    @select_merged ⟨[]⟩ ⟨["größe", "eval"]⟩ Wire.lengthsFit_empty hsecond
  refine ⟨⟨merged, swapped, hmerged, hswapped, ?_, ?_, ?_⟩, filled, hfilled, ?_⟩
  · rw [hselect]
    decide
  · rw [← hcomm, hselect]
    decide
  · rw [hboth (by decide) (by decide)]
    decide
  · rw [hempty rfl]
    decide

end DataSpec

end InferenceConfig
