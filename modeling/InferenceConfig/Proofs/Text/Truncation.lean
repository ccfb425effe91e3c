import InferenceConfig.Proofs.Text.RoundTrip

/-!
# Texts That Are Cut Off

A written text that is cut off holds the entries of its first lines, if the cut is at the start or
end of a line, before or behind the line feed. Otherwise its last line is malformed: whatever it
ends in, in the name, in an escape or behind an escaped quote, the closing quote of its value is
missing, since a line has one quote only that can close it.

## Main results

* `Text.ofChars_of_cut` — the line of an entry that is cut off;
* `Text.parse_of_append_lineFeed`, `Text.parse_cut` — a text that is cut off.
-/

namespace InferenceConfig

namespace Text

variable {kind : Kind} {entry : Field × String} {part missing : List Char}

/-- The first characters of a line of an entry are not white space and no comment. -/
theorem not_isTrailer_of_cut (hfield : entry.1 ∈ kind.fields)
    (hcut : part ++ missing = entryLine entry) (hpart : part ≠ []) :
    ¬ Line.IsTrailer part := by
  intro htrailer
  obtain ⟨first, more, hname, hfirst, -⟩ := isName_of_mem_fields hfield
  obtain ⟨c, later, rfl⟩ := List.exists_cons_of_ne_nil hpart
  rw [entryLine, hname, List.cons_append, List.cons_append] at hcut
  obtain ⟨rfl, -⟩ := List.cons.inj hcut
  have hshort : Line.IsName [c] := ⟨c, [], rfl, hfirst, by simp⟩
  have hdone : Line.isDone ([] ++ ([c] ++ later)) = false :=
    Line.isDone_append_name (by simp) hshort later
  rw [← Line.isDone_iff] at htrailer
  simp [htrailer] at hdone

/-- The line of an entry that is cut off is malformed. If it were an entry then its closing quote
would be that of the whole line, behind which there is nothing. -/
theorem ofChars_of_cut (hfield : entry.1 ∈ kind.fields)
    (hcut : part ++ missing = entryLine entry) (hpart : part ≠ []) (hmissing : missing ≠ []) :
    Line.ofChars part = .malformed := by
  refine Line.ofChars_eq_malformed_iff.mpr ⟨not_isTrailer_of_cut hfield hcut hpart, ?_⟩
  intro name body hentry
  obtain ⟨tail, hopens, -⟩ := Line.isEntry_iff_exists_tail.mp hentry
  have hwhole := hopens.append missing
  rw [hcut] at hwhole
  obtain ⟨-, -, htail⟩ := hwhole.unique (opens_entryLine hfield)
  exact hmissing (List.append_eq_nil_iff.mp htail).2

/-- What is cut off the lines of entries stands on one line, if it is anything. -/
theorem split_of_cut (hfield : entry.1 ∈ kind.fields)
    (hcut : part ++ missing = entryLine entry) (hpart : part ≠ []) :
    Line.split part = [part] := by
  refine Line.split_eq_singleton (fun hmem => ?_) hpart
  exact (isSingle_entryLine hfield).lineFeed_notMem (hcut ▸ List.mem_append_left missing hmem)

/-- The last line of a text, and its line feed. -/
theorem flatMap_renderEntry_concat (before : List (Field × String)) (last : Field × String) :
    ((before ++ [last]).flatMap fun entry => renderEntry entry.1 entry.2) =
      ((before.flatMap fun entry => renderEntry entry.1 entry.2) ++ entryLine last) ++
        ['\n'] := by
  rw [List.flatMap_append, List.flatMap_singleton, renderEntry_eq, List.append_assoc]

/-- The last line feed of a text is not needed. -/
theorem parse_of_append_lineFeed {entries : List (Field × String)}
    (hfields : ∀ entry ∈ entries, entry.1 ∈ kind.fields)
    (h : part ++ ['\n'] = entries.flatMap fun entry => renderEntry entry.1 entry.2) :
    parse kind part = .ok (entries.foldl Message.addEntry (Message.empty kind)) := by
  rcases List.eq_nil_or_concat entries with rfl | ⟨before, last, rfl⟩
  · simp at h
  · rw [List.concat_eq_append] at hfields h ⊢
    rw [flatMap_renderEntry_concat] at h
    obtain ⟨hbefore, hlast⟩ := List.forall_mem_append.mp hfields
    rw [List.forall_mem_singleton] at hlast
    have hline : entryLine last ≠ [] := by simp [entryLine]
    rw [List.append_cancel_right h, parse_flatMap_append hbefore,
      split_of_cut hlast (List.append_nil _) hline, addLines, addLine_entryLine _ hlast,
      List.foldl_append]
    rfl

/-- A text that is cut off holds the entries of its first lines, if the cut is before or behind
the end of one of them or at the start, and otherwise its last line is malformed. -/
theorem parse_cut {entries : List (Field × String)}
    (hfields : ∀ entry ∈ entries, entry.1 ∈ kind.fields)
    (hcut : part ++ missing = entries.flatMap fun entry => renderEntry entry.1 entry.2) :
    (∃ before, before <+: entries ∧
        (part = (before.flatMap fun entry => renderEntry entry.1 entry.2) ∨
          part ++ ['\n'] = before.flatMap fun entry => renderEntry entry.1 entry.2) ∧
        parse kind part = .ok (before.foldl Message.addEntry (Message.empty kind))) ∨
      ∃ number line, parse kind part = .error ⟨kind, number, .malformed line⟩ := by
  obtain ⟨before, rest, rfl, hbefore, hrest⟩ := Message.cut_flatMap hcut
  have hfieldsBefore : ∀ entry ∈ before, entry.1 ∈ kind.fields :=
    fun entry hentry => hfields entry (hbefore.subset hentry)
  rcases hrest with rfl | ⟨last, own, hlast, hne, hown, hrest⟩
  · rw [List.append_nil]
    exact .inl ⟨before, hbefore, .inl rfl, parse_flatMap_renderEntry hfieldsBefore⟩
  · have hfieldsLast : ∀ entry ∈ before ++ [last], entry.1 ∈ kind.fields :=
      fun entry hentry => hfields entry (hlast.subset hentry)
    have hfield := hfieldsLast last (List.mem_append_right before List.mem_cons_self)
    rw [renderEntry_eq] at hrest
    rcases Message.cut_append hrest with ⟨tail, htail, hline⟩ | ⟨later, rfl, hlater⟩
    · have hmalformed := ofChars_of_cut hfield hline hne htail
      refine .inr ⟨1 + before.length, rest, ?_⟩
      rw [parse_flatMap_append hfieldsBefore, split_of_cut hfield hline hne]
      simp only [addLines, addLine, hmalformed]
    · -- Only the line feed can be behind the line, and it is cut off.
      obtain rfl : later = [] := by
        cases later with
        | nil => rfl
        | cons c later =>
            rw [List.cons_append, List.cons.injEq] at hlater
            exact absurd (List.append_eq_nil_iff.mp hlater.2).2 hown
      have hwhole := (flatMap_renderEntry_concat before last).symm
      rw [List.append_nil]
      exact .inl ⟨before ++ [last], hlast, .inr hwhole,
        parse_of_append_lineFeed hfieldsLast hwhole⟩

end Text

end InferenceConfig
