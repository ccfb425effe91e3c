import InferenceConfig.Document.Report
import InferenceConfig.Proofs.Text.Quoted
import InferenceConfig.Proofs.Text.RoundTrip

/-!
# Reports Are Unambiguous

A report shows values twice: above the dashes as the text form writes them, and below them in
the quotes of messages to the user. Both ways of quoting show a character that may end a line by
others, so no value adds a line to a report, whatever it holds. A line above the dashes is an
entry or a comment, and the line of dashes is neither.

So a report is cut at its first line of dashes into the two parts that it was made of. The first
part is read as the message, and the report determines the message.

## Main definitions

* `Line.IsCutAt` — a text is cut at the first of its lines that is a given one;
* `Message.reportLines`, `Message.summaryHeadings` — the lines above the dashes, and what the
  lines below them start with.

## Main results

* `Quoted.isSingle_ofString`, `Quoted.isSingle_ofList` — quoted texts keep to their line;
* `Line.IsCutAt.unique` — there is one way only to cut a text at a line;
* `Message.parse_reportBody` — a message is read back from the first part of its report;
* `Message.forall₂_split_summary` — the lines of a summary;
* `Message.isCutAt_report_iff`, `Message.report_inj` — the two parts of a report, and its message;
* `Message.report_unambiguous` — reports as a whole.
-/

namespace InferenceConfig

/-! ### Quoted texts keep to their line -/

namespace Quoted

open Line (IsSingle isSingle_append isSingle_between isSingle_flatMap isSingle_intercalate)

/-- Hexadecimal digits end no line. -/
theorem isSingle_toDigits (n : Nat) : IsSingle (Nat.toDigits 16 n) := by
  have hdigit : ∀ k < 16, Nat.digitChar k ≠ '\n' ∧ Nat.digitChar k ≠ '\r' := by decide
  intro c hc
  obtain ⟨k, hk, rfl⟩ := exists_of_mem_toDigits hc
  exact hdigit k hk

/-- No character is shown by one that may end a line. -/
theorem isSingle_escape (c : Char) : IsSingle (escape c) := by
  unfold escape
  -- Six characters have an escape of their own.
  iterate 6 (split; · decide)
  split
  · exact isSingle_append (isSingle_append (by decide) (isSingle_toDigits _)) (by decide)
  · exact List.forall_mem_singleton.mpr ⟨‹_›, ‹_›⟩

/-- A quoted string keeps to a line, since its line feeds and carriage returns are escaped. -/
theorem isSingle_ofString (s : String) : IsSingle (ofString s).toList := by
  rw [ofString, ofChars, String.toList_ofList]
  have hbody : IsSingle (s.toList.flatMap escape ++ ['\x22']) :=
    isSingle_append (isSingle_flatMap fun c _ => isSingle_escape c) (by decide)
  exact List.forall_mem_cons.mpr ⟨by decide, hbody⟩

/-- A quoted list keeps to a line, since its strings do. -/
theorem isSingle_ofList (strings : List String) : IsSingle (ofList strings).toList := by
  refine isSingle_between (by decide) ?_ (by decide)
  rw [String.toList_intercalate, List.map_map]
  exact isSingle_intercalate (by decide) (List.forall_mem_map.mpr fun s _ => isSingle_ofString s)

end Quoted

/-! ### Cutting a text at a line -/

namespace Line

/-- The text is cut at the first of its lines that is the separator: into what stands before
this line and what stands behind it. -/
structure IsCutAt (separator text before after : List Char) : Prop where
  /-- The separator stands between the two parts, with the end of its line. -/
  text_eq : text = before ++ (separator ++ '\n' :: after)
  /-- It is a line of its own. -/
  ends : Ends before
  /-- No line before it is the separator. -/
  notMem : separator ∉ split before

variable {separator text before after : List Char}

/-- Of two cuts of a text, none has its first part go on where that of the other ends. What it
goes on with would have to end with a line, and would have the separator as its first line. -/
theorem IsCutAt.eq_nil_of_append {own later : List Char} (hseparator : IsSingle separator)
    (h : IsCutAt separator text before after)
    (h' : IsCutAt separator text (before ++ own) later) : own = [] := by
  by_contra hne
  have hlast : own.getLast? = some '\n' := by
    have hends := h'.ends.resolve_left (List.append_ne_nil_of_right_ne_nil before hne)
    rwa [List.getLast?_append_of_ne_nil _ hne] at hends
  have hsame : own ++ (separator ++ '\n' :: later) = (separator ++ ['\n']) ++ after := by
    have htext := h'.text_eq.symm.trans h.text_eq
    rw [List.append_assoc] at htext
    rw [List.append_assoc]
    exact List.append_cancel_left htext
  rcases Message.cut_append hsame with ⟨rest, hrest, hown⟩ | ⟨others, rfl, -⟩
  · -- The line feed at the end would stand within the separator.
    have hwithin : own ++ rest.dropLast = separator := by
      rw [← List.dropLast_append_of_ne_nil hrest, hown, List.dropLast_concat]
    have hmem := List.mem_append_left rest.dropLast (List.mem_of_getLast? hlast)
    exact hseparator.lineFeed_notMem (hwithin ▸ hmem)
  · have hsplit : split (before ++ (separator ++ ['\n'] ++ others)) =
        split before ++ separator :: split others := by
      rw [h.ends.split_append, List.append_assoc, List.singleton_append,
        split_append hseparator.lineFeed_notMem hseparator.getLast?_ne]
    exact h'.notMem (hsplit ▸ List.mem_append_right _ List.mem_cons_self)

/-- There is one way only to cut a text at a line. -/
theorem IsCutAt.unique {before' after' : List Char} (hseparator : IsSingle separator)
    (h : IsCutAt separator text before after) (h' : IsCutAt separator text before' after') :
    before = before' ∧ after = after' := by
  have hbefore : before = before' := by
    have htext := h.text_eq.symm.trans h'.text_eq
    rcases List.append_eq_append_iff.mp htext with ⟨own, rfl, -⟩ | ⟨own, rfl, -⟩
    · rw [h.eq_nil_of_append hseparator h', List.append_nil]
    · rw [h'.eq_nil_of_append hseparator h, List.append_nil]
  subst hbefore
  have hafter := List.append_cancel_left (h.text_eq.symm.trans h'.text_eq)
  exact ⟨rfl, (List.cons.inj (List.append_cancel_left hafter)).2⟩

end Line

namespace Message

variable {kind : Kind}

/-- The line that separates the two parts of a report. -/
def dashes : List Char := ['-', '-', '-']

/-! ### Above the dashes -/

/-- The lines above the dashes: those of the entries, or a comment if there are none. -/
def reportLines (message : Message kind) : List (List Char) :=
  if message.entries = [] then ["# (all fields empty)".toList]
  else message.entries.map Text.entryLine

/-- The body of a report is its lines, with a line feed behind each. -/
theorem reportBody_eq (message : Message kind) :
    message.reportBody.toList = message.reportLines.flatMap fun line => line ++ ['\n'] := by
  have hrender : Text.render message =
      (message.entries.map Text.entryLine).flatMap fun line => line ++ ['\n'] :=
    Text.flatMap_renderEntry_eq message.entries
  rw [reportBody, reportLines, hrender]
  cases message.entries with
  | nil => rfl
  | cons entry entries =>
      rw [if_neg (List.cons_ne_nil entry entries)]
      split
      · next hnil => simp at hnil
      · exact String.toList_ofList

/-- A line above the dashes is a comment, or it is an entry of the message. -/
theorem mem_reportLines {message : Message kind} {line : List Char}
    (h : line ∈ message.reportLines) :
    line = "# (all fields empty)".toList ∨
      ∃ entry, entry.1 ∈ kind.fields ∧ line = Text.entryLine entry := by
  rw [reportLines] at h
  split at h
  · exact .inl (List.mem_singleton.mp h)
  · obtain ⟨entry, hentry, rfl⟩ := List.mem_map.mp h
    exact .inr ⟨entry, mem_fields_of_mem_entries hentry, rfl⟩

/-- Every line of a report keeps to its line. -/
theorem isSingle_of_mem_reportLines {message : Message kind} {line : List Char}
    (h : line ∈ message.reportLines) : Line.IsSingle line := by
  rcases mem_reportLines h with rfl | ⟨entry, hfield, rfl⟩
  · decide
  · exact Text.isSingle_entryLine hfield

/-- The line of dashes is malformed, so it is not above itself. -/
theorem dashes_notMem_reportLines (message : Message kind) : dashes ∉ message.reportLines := by
  intro h
  have hdashes : Line.ofChars dashes = .malformed := by decide
  rcases mem_reportLines h with hremark | ⟨entry, hfield, hentry⟩
  · exact absurd hremark (by decide)
  · rw [hentry, Line.ofChars_eq_entry_iff.mpr (Text.isEntry_entryLine hfield)] at hdashes
    simp at hdashes

/-- The remark on a message without values is read as that message. -/
theorem parse_remark (kind : Kind) :
    Text.parse kind "# (all fields empty)\n".toList = .ok (empty kind) := by
  cases kind <;> rfl

/-- A message is read back from the first part of its report. -/
theorem parse_reportBody (message : Message kind) :
    Text.parse kind message.reportBody.toList = .ok message := by
  have hmessage := foldl_addEntry_entries message
  rw [reportBody_eq, reportLines]
  split
  · next hnil =>
      rw [hnil] at hmessage
      rw [← hmessage]
      exact parse_remark kind
  · rw [← Text.flatMap_renderEntry_eq,
      Text.parse_flatMap_renderEntry fun _ hentry => mem_fields_of_mem_entries hentry, hmessage]

/-- The remark stands above the dashes exactly if there are no values. -/
theorem reportBody_eq_remark_iff {message : Message kind} :
    message.reportBody.toList = "# (all fields empty)\n".toList ↔
      ∀ field ∈ kind.fields, message.values field.number = [] := by
  constructor
  · intro h
    have hparse := parse_reportBody message
    rw [h, parse_remark] at hparse
    intro field hfield
    rw [← Except.ok.inj hparse, values_empty hfield]
  · intro h
    rw [reportBody_eq, reportLines, if_pos (entries_eq_nil_iff.mpr h)]
    rfl

/-! ### Below the dashes -/

/-- What the lines below the dashes start with. -/
def summaryHeadings : Kind → List String
  | .model => ["heads: ", "tags: "]
  | .data => ["splits: "]

/-- The summary of a model is written on two lines. -/
theorem exists_lines_of_model (spec : ModelSpec) :
    ∃ heads tags, (spec.summary ++ "\n").toList =
        "heads: ".toList ++ heads ++ ['\n'] ++ ("tags: ".toList ++ tags ++ ['\n']) ∧
      Line.IsSingle heads ∧ Line.IsSingle tags := by
  obtain ⟨heads, hheads, hsummary⟩ : ∃ heads : String, Line.IsSingle heads.toList ∧
      spec.summary = "heads: " ++ heads ++ "\ntags: " ++ Quoted.ofList spec.effectiveTags := by
    rw [ModelSpec.summary]
    cases spec.signatureSelection with
    | default =>
        exact ⟨_, Line.isSingle_between (by decide) (Quoted.isSingle_ofString _) (by decide),
          rfl⟩
    | single name =>
        exact ⟨_, Line.isSingle_between (by decide) (Quoted.isSingle_ofString name) (by decide),
          rfl⟩
    | multi names =>
        refine ⟨_, ?_, rfl⟩
        rw [String.toList_append]
        exact Line.isSingle_append (by decide) (Quoted.isSingle_ofList _)
  refine ⟨heads.toList, _, ?_, hheads, Quoted.isSingle_ofList spec.effectiveTags⟩
  simp [hsummary]

/-- The summary of the data is written on one line. -/
theorem exists_lines_of_data (spec : DataSpec) :
    ∃ splits, (spec.summary ++ "\n").toList = "splits: ".toList ++ splits ++ ['\n'] ∧
      Line.IsSingle splits := by
  rw [DataSpec.summary]
  split
  · exact ⟨"all".toList, rfl, by decide⟩
  · exact ⟨_, by simp, Quoted.isSingle_ofList spec.exampleSplits⟩

/-- The lines below the dashes start with the headings of the kind. -/
theorem forall₂_split_summary (message : Message kind) :
    List.Forall₂ (fun heading line => heading.toList <+: line) (summaryHeadings kind)
      (Line.split (message.summary ++ "\n").toList) := by
  obtain ⟨lines, htext, hsingle, hheadings⟩ : ∃ lines,
      (message.summary ++ "\n").toList = (lines.flatMap fun line => line ++ ['\n']) ∧
        (∀ line ∈ lines, Line.IsSingle line) ∧
        List.Forall₂ (fun heading line => heading.toList <+: line) (summaryHeadings kind)
          lines := by
    cases kind with
    | model =>
        obtain ⟨heads, tags, htext, hheads, htags⟩ := exists_lines_of_model message
        refine ⟨["heads: ".toList ++ heads, "tags: ".toList ++ tags], htext.trans (by simp), ?_,
          .cons (List.prefix_append _ _) (.cons (List.prefix_append _ _) .nil)⟩
        exact List.forall_mem_cons.mpr ⟨Line.isSingle_append (by decide) hheads,
          List.forall_mem_singleton.mpr (Line.isSingle_append (by decide) htags)⟩
    | data =>
        obtain ⟨splits, htext, hsplits⟩ := exists_lines_of_data message
        refine ⟨["splits: ".toList ++ splits], htext.trans (by simp), ?_,
          .cons (List.prefix_append _ _) .nil⟩
        exact List.forall_mem_singleton.mpr (Line.isSingle_append (by decide) hsplits)
  rwa [htext, Line.split_flatMap hsingle]

/-! ### The report -/

/-- A report is cut at its first line of dashes into the parts that it was made of. -/
theorem isCutAt_report (message : Message kind) :
    Line.IsCutAt dashes message.report.toList message.reportBody.toList
      (message.summary ++ "\n").toList := by
  have hbody := reportBody_eq message
  refine ⟨by simp [report, dashes], hbody ▸ Line.ends_flatMap _, ?_⟩
  rw [hbody, Line.split_flatMap fun line hline => isSingle_of_mem_reportLines hline]
  exact dashes_notMem_reportLines message

/-- The line of dashes stands once in a report, between its body and the summary. -/
theorem isCutAt_report_iff {message : Message kind} {before after : List Char} :
    Line.IsCutAt dashes message.report.toList before after ↔
      before = message.reportBody.toList ∧ after = (message.summary ++ "\n").toList := by
  constructor
  · exact fun h => h.unique (by decide) (isCutAt_report message)
  · rintro ⟨rfl, rfl⟩
    exact isCutAt_report message

/-- The report determines the message. -/
theorem report_inj {first second : Message kind} :
    first.report = second.report ↔ first = second := by
  constructor
  · intro h
    have hcut := isCutAt_report first
    rw [h] at hcut
    obtain ⟨hbody, -⟩ := isCutAt_report_iff.mp hcut
    have hparse := parse_reportBody first
    rw [hbody, parse_reportBody second] at hparse
    exact (Except.ok.inj hparse).symm
  · rintro rfl
    rfl

/-- **Reports are unambiguous**, whatever characters the values of a message hold. A report is
cut at its first line of dashes. What stands above is read as the message, and it is the remark
on a message without values exactly if all lists are empty. What stands below has one line for
each heading of the kind. So two messages have the same report only if they are equal. -/
theorem report_unambiguous (kind : Kind) :
    (∀ message : Message kind, ∃ body summary,
      (∀ before after, Line.IsCutAt dashes message.report.toList before after ↔
        before = body ∧ after = summary) ∧
      Text.parse kind body = .ok message ∧
      (body = "# (all fields empty)\n".toList ↔
        ∀ field ∈ kind.fields, message.values field.number = []) ∧
      List.Forall₂ (fun heading line => heading.toList <+: line) (summaryHeadings kind)
        (Line.split summary)) ∧
    ∀ first second : Message kind, first.report = second.report ↔ first = second := by
  refine ⟨fun message => ?_, fun first second => report_inj⟩
  exact ⟨_, _, fun before after => isCutAt_report_iff, parse_reportBody message,
    reportBody_eq_remark_iff, forall₂_split_summary message⟩

/-- A value that would be a line of dashes is quoted on both sides of the dashes. -/
example : @report .data ⟨["\n---\n"]⟩ =
    "example_splits: \x22\\n---\\n\x22\n---\nsplits: [\x22\\n---\\n\x22]\n" := by
  decide +kernel

end Message

end InferenceConfig
