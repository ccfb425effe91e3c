import InferenceConfig.Document.Codec
import InferenceConfig.Proofs.Text.Acceptance

/-!
# Reading Back What Is Written as Text

The text of a message has one line for each entry. The value of the entry is written as a
body that neither ends before its closing quote nor holds a character that may end a line,
so the lines of the text are the lines that were written, and each of them is read as the
entry that it was written for. White space in a value stands between the quotes and is kept.

## Main definitions

* `Text.entryLine` — the line of an entry, without its end.

## Main results

* `Escape.isBody_encode`, `Escape.isSingle_encode` — a written body has the form of a body,
  and keeps to its line;
* `Text.split_flatMap_entryLine` — the lines of a written text;
* `Text.addLine_entryLine`, `Text.addLines_map_entryLine` — what the lines of entries add;
* `Text.parse_render` — a message is read back from its text.
-/

namespace InferenceConfig

/-! ### Written bodies -/

namespace Escape

/-- A character is written as a pair of a backslash and another character, or it is none of
those that need it and is written as it is. Neither holds a character that may end a line. -/
theorem encodeChar_cases (c : Char) :
    (∃ mark, encodeChar c = ['\\', mark] ∧ mark ≠ '\n' ∧ mark ≠ '\r') ∨
      (encodeChar c = [c] ∧ c ≠ '\x22' ∧ c ≠ '\\' ∧ c ≠ '\n' ∧ c ≠ '\r') := by
  by_cases hbackslash : c = '\\'
  · exact .inl ⟨'\\', by simp [encodeChar, hbackslash], by decide, by decide⟩
  by_cases hquote : c = '\x22'
  · exact .inl ⟨'\x22', by simp [encodeChar, hquote], by decide, by decide⟩
  by_cases hfeed : c = '\n'
  · exact .inl ⟨'n', by simp [encodeChar, hfeed], by decide, by decide⟩
  by_cases hcarriage : c = '\r'
  · exact .inl ⟨'r', by simp [encodeChar, hcarriage], by decide, by decide⟩
  by_cases htab : c = '\t'
  · exact .inl ⟨'t', by simp [encodeChar, htab], by decide, by decide⟩
  · exact .inr ⟨by simp [encodeChar, *], hquote, hbackslash, hfeed, hcarriage⟩

/-- What is written for a value may stand between double quotes. -/
theorem isBody_encode (value : List Char) : Line.IsBody '\x22' (encode value) := by
  induction value with
  | nil => exact .nil
  | cons c value ih =>
      rw [encode, List.flatMap_cons, ← encode]
      rcases encodeChar_cases c with ⟨mark, hpair, -, -⟩ | ⟨hsingle, hquote, hbackslash, -, -⟩
      · rw [hpair]
        exact .escape ih
      · rw [hsingle]
        exact .plain hquote hbackslash ih

/-- What is written for a value holds no character that may end a line. -/
theorem isSingle_encode (value : List Char) : Line.IsSingle (encode value) := by
  refine Line.isSingle_flatMap fun c _ => ?_
  rcases encodeChar_cases c with ⟨mark, hpair, hfeed, hcarriage⟩ | ⟨hsingle, -, -, hline⟩
  · rw [hpair]
    exact List.forall_mem_cons.mpr
      ⟨by decide, List.forall_mem_singleton.mpr ⟨hfeed, hcarriage⟩⟩
  · rw [hsingle]
    exact List.forall_mem_singleton.mpr hline

end Escape

namespace Text

variable {kind : Kind} {field : Field} {entry : Field × String}

/-! ### Written lines -/

/-- The line of an entry, without its end. -/
def entryLine (entry : Field × String) : List Char :=
  entry.1.name.toList ++
    (':' :: ' ' :: '\x22' :: (Escape.encode entry.2.toList ++ ['\x22']))

/-- An entry is written as its line and a line feed. -/
theorem renderEntry_eq (entry : Field × String) :
    renderEntry entry.1 entry.2 = entryLine entry ++ ['\n'] := by
  simp [renderEntry, entryLine]

/-- The line of an entry ends at its closing quote. -/
theorem opens_entryLine (h : entry.1 ∈ kind.fields) :
    Line.Opens (entryLine entry) entry.1.name.toList (Escape.encode entry.2.toList) [] :=
  ⟨[], [], [' '], '\x22', rfl, List.forall_mem_singleton.mpr (by decide),
    isName_of_mem_fields h, .inl rfl, Escape.isBody_encode _⟩

/-- The line that is written for an entry is one, with the escaped value as its body. -/
theorem isEntry_entryLine (h : entry.1 ∈ kind.fields) :
    Line.IsEntry (entryLine entry) entry.1.name.toList (Escape.encode entry.2.toList) :=
  Line.isEntry_iff_exists_tail.mpr ⟨[], opens_entryLine h, Line.isDone_iff.mp rfl⟩

/-- The line of an entry is a single line. -/
theorem isSingle_entryLine (h : entry.1 ∈ kind.fields) : Line.IsSingle (entryLine entry) := by
  refine Line.isSingle_append (fun c hc => ?_) ?_
  · have hchar := Line.isNameChar_of_mem (isName_of_mem_fields h) hc
    constructor <;> (rintro rfl; exact absurd hchar (by decide))
  · have hopening : Line.IsSingle [':', ' ', '\x22'] := by decide
    have hclosing : Line.IsSingle ['\x22'] := by decide
    exact Line.isSingle_append hopening
      (Line.isSingle_append (Escape.isSingle_encode _) hclosing)

/-- The text of entries is written line by line. -/
theorem flatMap_renderEntry_eq (entries : List (Field × String)) :
    (entries.flatMap fun entry => renderEntry entry.1 entry.2) =
      (entries.map entryLine).flatMap fun line => line ++ ['\n'] := by
  simp only [renderEntry_eq, List.flatMap_map]

/-- The lines of a written text are those that were written, whatever follows. -/
theorem split_flatMap_entryLine {entries : List (Field × String)}
    (h : ∀ entry ∈ entries, entry.1 ∈ kind.fields) (rest : List Char) :
    Line.split ((entries.flatMap fun entry => renderEntry entry.1 entry.2) ++ rest) =
      entries.map entryLine ++ Line.split rest := by
  rw [flatMap_renderEntry_eq]
  refine Line.split_flatMap_append (List.forall_mem_map.mpr fun entry hentry => ?_) rest
  exact isSingle_entryLine (h entry hentry)

/-! ### Reading back -/

/-- The line of an entry adds the entry. -/
theorem addLine_entryLine (message : Message kind) (h : entry.1 ∈ kind.fields) :
    addLine message (entryLine entry) = .ok (message.addEntry entry) := by
  have hfield : kind.fieldWithName? entry.1.name = some entry.1 :=
    Kind.fieldWithName?_eq_some_iff.mpr ⟨h, rfl⟩
  simp only [addLine, Line.ofChars_eq_entry_iff.mpr (isEntry_entryLine h), hfield,
    String.ofList_toList, Escape.decode_encode, message.push?_eq_some_addEntry h]

/-- The lines of entries add the entries, one after another, before the lines that follow. -/
theorem addLines_map_entryLine (message : Message kind) (number : Nat)
    {entries : List (Field × String)} (h : ∀ entry ∈ entries, entry.1 ∈ kind.fields)
    (later : List (List Char)) :
    addLines message number (entries.map entryLine ++ later) =
      addLines (entries.foldl Message.addEntry message) (number + entries.length) later := by
  induction entries generalizing message number with
  | nil => rfl
  | cons entry entries ih =>
      obtain ⟨hentry, hentries⟩ := List.forall_mem_cons.mp h
      simp only [List.map_cons, List.cons_append, addLines, addLine_entryLine message hentry,
        ih _ _ hentries, List.foldl_cons, List.length_cons, Nat.add_assoc, Nat.add_comm 1]

/-- The lines of entries are read as these entries, and then what follows is read. -/
theorem parse_flatMap_append {entries : List (Field × String)}
    (h : ∀ entry ∈ entries, entry.1 ∈ kind.fields) (rest : List Char) :
    parse kind ((entries.flatMap fun entry => renderEntry entry.1 entry.2) ++ rest) =
      addLines (entries.foldl Message.addEntry (Message.empty kind)) (1 + entries.length)
        (Line.split rest) := by
  rw [parse, split_flatMap_entryLine h, addLines_map_entryLine _ _ h]

/-- The lines of entries are read as these entries. -/
theorem parse_flatMap_renderEntry {entries : List (Field × String)}
    (h : ∀ entry ∈ entries, entry.1 ∈ kind.fields) :
    parse kind (entries.flatMap fun entry => renderEntry entry.1 entry.2) =
      .ok (entries.foldl Message.addEntry (Message.empty kind)) := by
  have hparse := parse_flatMap_append h []
  rw [List.append_nil] at hparse
  exact hparse

/-- **A message is read back from its text**, whatever characters its values hold. It is read
back from the bytes of the text as well, and the origin that is named for them only shows in
the report that the text has been read. -/
theorem parse_render (message : Message kind) :
    parse kind (render message) = .ok message ∧
      ∀ origin, Document.decodeTraced kind .text origin (Document.encode .text message) =
        ([.parsed kind origin], .ok message) := by
  have hparse : parse kind (render message) = .ok message := by
    have hfields : ∀ entry ∈ message.entries, entry.1 ∈ kind.fields :=
      fun entry hentry => Message.mem_fields_of_mem_entries hentry
    rw [render, parse_flatMap_renderEntry hfields, Message.foldl_addEntry_entries]
  refine ⟨hparse, fun origin => ?_⟩
  simp only [Document.decodeTraced, Document.encode, Utf8.decode_encode, hparse]

end Text

end InferenceConfig
