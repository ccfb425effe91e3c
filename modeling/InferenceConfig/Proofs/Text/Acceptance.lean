import InferenceConfig.Proofs.Message
import InferenceConfig.Proofs.Text.Escape
import InferenceConfig.Text.Form
import Mathlib.Data.List.Forall2

/-!
# The Texts That Are Accepted

A line of a text is white space, a comment, or an entry of a field whose body holds supported
escapes only. A text is accepted exactly if all of its lines are, and the message that it
holds is made up of the entries, in order. Otherwise the first line that is none of these
decides the error: it is malformed, or it is an entry of an unknown field, or an entry with
an escape that is not supported. The first of these faults that the line has is reported.

## Main definitions

* `Text.Contributes` — what a line adds to the message;
* `Text.Offends` — the fault of a line that adds nothing, and the phrase that names it;
* `Text.Error.Mentions` — what can be read in the report on an error.

## Main results

* `Text.addLine_eq_ok_iff`, `Text.addLine_eq_error_iff` — what one line does;
* `Text.addLines_eq_ok_iff`, `Text.addLines_eq_error_iff` — what a run over the lines does;
* `Text.parse_decides_lines` — which texts are accepted as which message, and where and for
  what the others are refused.
-/

namespace InferenceConfig

namespace Text

/-- The line adds the entries: none if it is white space or a comment, and otherwise one, of
a field of the kind and with the value that the body spells. -/
inductive Contributes (kind : Kind) :
    (line : List Char) → (entries : List (Field × String)) → Prop
  | blank {line : List Char} : (∀ c ∈ line, isBlank c = true) → Contributes kind line []
  | comment {blanks note : List Char} :
      (∀ c ∈ blanks, isBlank c = true) → Contributes kind (blanks ++ '#' :: note) []
  | entry {line : List Char} {field : Field} {quote : Char} {body value : List Char} :
      field ∈ kind.fields → Line.IsFramed line field.name.toList quote body →
      Escape.Spells quote body value → Contributes kind line [(field, String.ofList value)]

/-- What is wrong with a line that adds nothing, and the phrase that says so: it has not even
the form of an entry of some field with any escapes, or no field has its name, or its body
has an escape that is not supported. -/
inductive Offends (kind : Kind) (line : List Char) :
    (phrase : String) → (fault : Fault) → Prop
  | malformed :
      (∀ name quote body, Line.IsFramed line name quote body → Line.IsName name →
        ¬ Line.IsBody quote body) →
      Offends kind line "cannot parse line" (.malformed line)
  | unknownField {name : List Char} {quote : Char} {body : List Char} :
      Line.IsFramed line name quote body → Line.IsName name → Line.IsBody quote body →
      (∀ field ∈ kind.fields, field.name ≠ String.ofList name) →
      Offends kind line "unknown field" (.unknownField name)
  | unsupportedEscape {field : Field} {quote letter : Char} {body : List Char} :
      field ∈ kind.fields → Line.IsFramed line field.name.toList quote body →
      Line.IsBody quote body → Escape.FirstUnsupported quote body letter →
      Offends kind line ("unsupported escape \\" ++ String.singleton letter)
        (.badValue body (.unsupported letter))

/-- Some message of the report on an error in a document from `origin` contains the part. -/
def Error.Mentions (e : Error) (origin part : String) : Prop :=
  ∃ message ∈ e.messages origin, part.toList <:+: message.toList

variable {kind : Kind} {field : Field} {line : List Char}

/-- The fields of a kind have names that can be read. -/
theorem isName_of_mem_fields (h : field ∈ kind.fields) : Line.IsName field.name.toList := by
  cases kind with
  | model =>
      simp only [Kind.fields, List.mem_cons, List.not_mem_nil, or_false] at h
      rcases h with rfl | rfl
      · exact ⟨'m', _, rfl, by decide, List.all_eq_true.mp (by decide)⟩
      · exact ⟨'t', _, rfl, by decide, List.all_eq_true.mp (by decide)⟩
  | data =>
      simp only [Kind.fields, List.mem_cons, List.not_mem_nil, or_false] at h
      subst h
      exact ⟨'e', _, rfl, by decide, List.all_eq_true.mp (by decide)⟩

/-! ### One line -/

/-- A line with a comment, or with nothing, contributes nothing. -/
theorem contributes_nil_of_isTrailer (h : Line.IsTrailer line) : Contributes kind line [] := by
  obtain ⟨blanks, comment, rfl, hblanks, rfl | ⟨note, rfl⟩⟩ := h
  · rw [List.append_nil]
    exact .blank hblanks
  · exact .comment hblanks

/-- A line that adds entries is read, and adds them. -/
theorem addLine_of_contributes {entries : List (Field × String)}
    (h : Contributes kind line entries) (message : Message kind) :
    addLine message line = .ok (entries.foldl Message.addEntry message) := by
  cases h with
  | blank hblanks =>
      have hline : Line.ofChars line = .blank :=
        Line.ofChars_eq_blank_iff.mpr ⟨line, [], (List.append_nil line).symm, hblanks, .inl rfl⟩
      simp only [addLine, hline, List.foldl_nil]
  | @comment blanks note hblanks =>
      have hline : Line.ofChars (blanks ++ '#' :: note) = .blank :=
        Line.ofChars_eq_blank_iff.mpr ⟨blanks, _, rfl, hblanks, .inr ⟨note, rfl⟩⟩
      simp only [addLine, hline, List.foldl_nil]
  | @entry _ field quote body value hfield hframed hspells =>
      have hline : Line.ofChars line = .entry field.name.toList body :=
        Line.ofChars_eq_entry_iff.mpr (Line.isEntry_iff_exists_quote.mpr
          ⟨quote, hframed, isName_of_mem_fields hfield, hspells.isBody⟩)
      have hknown : kind.fieldWithName? field.name = some field :=
        Kind.fieldWithName?_eq_some_iff.mpr ⟨hfield, rfl⟩
      have hentry : (field, String.ofList value).1 ∈ kind.fields := hfield
      have hpush := message.push?_eq_some_addEntry hentry
      simp only [addLine, hline, String.ofList_toList, hknown, hspells.decode, hpush,
        List.foldl_cons, List.foldl_nil]

/-- A line that adds nothing and is at fault is refused for its fault. -/
theorem addLine_of_offends {phrase : String} {fault : Fault}
    (hnone : ∀ entries, ¬ Contributes kind line entries)
    (h : Offends kind line phrase fault) (message : Message kind) :
    addLine message line = .error fault := by
  have hentry {name quote body} (hframed : Line.IsFramed line name quote body)
      (hname : Line.IsName name) (hbody : Line.IsBody quote body) :
      Line.ofChars line = .entry name body :=
    Line.ofChars_eq_entry_iff.mpr
      (Line.isEntry_iff_exists_quote.mpr ⟨quote, hframed, hname, hbody⟩)
  cases h with
  | malformed hframed =>
      have hline : Line.ofChars line = .malformed := by
        refine Line.ofChars_eq_malformed_iff.mpr
          ⟨fun htrailer => hnone [] (contributes_nil_of_isTrailer htrailer), ?_⟩
        intro name body hline
        obtain ⟨quote, hframe, hname, hbody⟩ := Line.isEntry_iff_exists_quote.mp hline
        exact hframed name quote body hframe hname hbody
      simp only [addLine, hline]
  | @unknownField name _ _ hframed hname hbody hunknown =>
      have hfield : kind.fieldWithName? (String.ofList name) = none := by
        rw [Option.eq_none_iff_forall_ne_some]
        intro field hfield
        obtain ⟨hmem, hname⟩ := Kind.fieldWithName?_eq_some_iff.mp hfield
        exact hunknown field hmem hname
      simp only [addLine, hentry hframed hname hbody, hfield]
  | @unsupportedEscape field _ _ _ hfield hframed hbody hletter =>
      have hknown : kind.fieldWithName? field.name = some field :=
        Kind.fieldWithName?_eq_some_iff.mpr ⟨hfield, rfl⟩
      simp only [addLine, hentry hframed (isName_of_mem_fields hfield) hbody,
        String.ofList_toList, hknown, hletter.decode]

/-- Every line adds entries or is at fault. -/
theorem contributes_or_offends (kind : Kind) (line : List Char) :
    (∃ entries, Contributes kind line entries) ∨
      ∃ phrase fault, Offends kind line phrase fault := by
  cases hline : Line.ofChars line with
  | blank =>
      exact .inl ⟨[], contributes_nil_of_isTrailer (Line.ofChars_eq_blank_iff.mp hline)⟩
  | malformed =>
      refine .inr ⟨_, _, .malformed fun name quote body hframed hname hbody => ?_⟩
      exact (Line.ofChars_eq_malformed_iff.mp hline).2 name body
        (Line.isEntry_iff_exists_quote.mpr ⟨quote, hframed, hname, hbody⟩)
  | entry name body =>
      obtain ⟨quote, hframed, hname, hbody⟩ :=
        Line.isEntry_iff_exists_quote.mp (Line.ofChars_eq_entry_iff.mp hline)
      by_cases hknown : ∃ field ∈ kind.fields, field.name = String.ofList name
      · obtain ⟨field, hfield, heq⟩ := hknown
        obtain rfl : field.name.toList = name := by rw [heq, String.toList_ofList]
        rcases Escape.spells_or_firstUnsupported hbody with ⟨value, hvalue⟩ | ⟨letter, hletter⟩
        · exact .inl ⟨_, .entry hfield hframed hvalue⟩
        · exact .inr ⟨_, _, .unsupportedEscape hfield hframed hbody hletter⟩
      · refine .inr ⟨_, _, .unknownField hframed hname hbody fun field hfield heq => ?_⟩
        exact hknown ⟨field, hfield, heq⟩

/-- A line is read exactly if it adds entries, and these are what it adds. -/
theorem addLine_eq_ok_iff {message longer : Message kind} :
    addLine message line = .ok longer ↔
      ∃ entries, Contributes kind line entries ∧
        entries.foldl Message.addEntry message = longer := by
  constructor
  · intro h
    by_cases hsome : ∃ entries, Contributes kind line entries
    · obtain ⟨entries, hentries⟩ := hsome
      rw [addLine_of_contributes hentries, Except.ok.injEq] at h
      exact ⟨entries, hentries, h⟩
    · obtain ⟨phrase, fault, hfault⟩ := (contributes_or_offends kind line).resolve_left hsome
      simp [addLine_of_offends (not_exists.mp hsome) hfault] at h
  · rintro ⟨entries, hentries, rfl⟩
    exact addLine_of_contributes hentries message

/-- A line is refused exactly if it adds nothing, and it is refused for its fault. -/
theorem addLine_eq_error_iff {message : Message kind} {fault : Fault} :
    addLine message line = .error fault ↔
      (∀ entries, ¬ Contributes kind line entries) ∧
        ∃ phrase, Offends kind line phrase fault := by
  constructor
  · intro h
    have hnone : ∀ entries, ¬ Contributes kind line entries := by
      intro entries hentries
      simp [addLine_of_contributes hentries] at h
    obtain ⟨phrase, found, hfound⟩ :=
      (contributes_or_offends kind line).resolve_left (not_exists.mpr hnone)
    rw [addLine_of_offends hnone hfound, Except.error.injEq] at h
    exact ⟨hnone, phrase, h ▸ hfound⟩
  · rintro ⟨hnone, phrase, hfault⟩
    exact addLine_of_offends hnone hfault message

/-! ### All lines -/

/-- Lines are read exactly if each of them adds entries, and together they add all of these.
Induction on the lines. -/
theorem addLines_eq_ok_iff {message longer : Message kind} {number : Nat}
    {lines : List (List Char)} :
    addLines message number lines = .ok longer ↔
      ∃ additions, List.Forall₂ (Contributes kind) lines additions ∧
        additions.flatten.foldl Message.addEntry message = longer := by
  induction lines generalizing message number with
  | nil => simp [addLines, List.forall₂_nil_left_iff]
  | cons line lines ih =>
      constructor
      · intro h
        cases hline : addLine message line with
        | error fault => simp [addLines, hline] at h
        | ok next =>
            simp only [addLines, hline] at h
            obtain ⟨entries, hentries, rfl⟩ := addLine_eq_ok_iff.mp hline
            obtain ⟨additions, hadditions, hlonger⟩ := ih.mp h
            refine ⟨entries :: additions, .cons hentries hadditions, ?_⟩
            rw [List.flatten_cons, List.foldl_append, hlonger]
      · rintro ⟨_, hadditions, hlonger⟩
        cases hadditions with
        | cons hentries hadditions =>
            rw [List.flatten_cons, List.foldl_append] at hlonger
            simp only [addLines, addLine_of_contributes hentries]
            exact ih.mpr ⟨_, hadditions, hlonger⟩

/-- Lines are refused exactly if one of them is refused and those before it add entries.
Induction on the lines: the number grows with each line that is passed. -/
theorem addLines_eq_error_iff {message : Message kind} {number : Nat}
    {lines : List (List Char)} {e : Error} :
    addLines message number lines = .error e ↔
      ∃ before line after phrase, lines = before ++ line :: after ∧
        (∀ earlier ∈ before, ∃ entries, Contributes kind earlier entries) ∧
        (∀ entries, ¬ Contributes kind line entries) ∧
        Offends kind line phrase e.fault ∧ e.kind = kind ∧
        e.line = number + before.length := by
  induction lines generalizing message number with
  | nil => simp [addLines]
  | cons line lines ih =>
      simp only [List.cons_eq_append_iff]
      cases hline : addLine message line with
      | error fault =>
          obtain ⟨hnone, phrase, hfault⟩ := addLine_eq_error_iff.mp hline
          simp only [addLines, hline, Except.error.injEq]
          constructor
          · rintro rfl
            exact ⟨[], line, lines, phrase, .inl ⟨rfl, rfl⟩, nofun, hnone, hfault, rfl, rfl⟩
          · rintro ⟨_, found, after, phrase', ⟨rfl, hcons⟩ | ⟨before, rfl, -⟩, hbefore, -,
              hoffends, hkind, hnumber⟩
            · obtain ⟨rfl, rfl⟩ := List.cons.inj hcons
              rw [addLine_of_offends hnone hoffends, Except.error.injEq] at hline
              obtain ⟨own, found, efault⟩ := e
              obtain rfl : own = kind := hkind
              obtain rfl : found = number := by simpa using hnumber
              exact congrArg (Error.mk own found) hline.symm
            · obtain ⟨entries, hentries⟩ := hbefore line List.mem_cons_self
              exact absurd hentries (hnone entries)
      | ok next =>
          obtain ⟨entries, hentries, rfl⟩ := addLine_eq_ok_iff.mp hline
          simp only [addLines, hline, ih]
          constructor
          · rintro ⟨before, found, after, phrase, rfl, hbefore, hnone, hoffends, hkind, hnumber⟩
            refine ⟨line :: before, found, after, phrase, .inr ⟨before, rfl, rfl⟩,
              List.forall_mem_cons.mpr ⟨⟨entries, hentries⟩, hbefore⟩, hnone, hoffends, hkind,
              ?_⟩
            rw [hnumber, List.length_cons]
            omega
          · rintro ⟨_, found, after, phrase, ⟨rfl, hcons⟩ | ⟨before, rfl, rfl⟩, hbefore, hnone,
              hoffends, hkind, hnumber⟩
            · obtain ⟨rfl, rfl⟩ := List.cons.inj hcons
              exact absurd hentries (hnone entries)
            · refine ⟨before, found, after, phrase, rfl,
                (List.forall_mem_cons.mp hbefore).2, hnone, hoffends, hkind, ?_⟩
              rw [hnumber, List.length_cons]
              omega

/-! ### A whole text -/

/-- Lines contribute only to fields of the kind. -/
theorem mem_fields_of_contributes {entries : List (Field × String)}
    (h : Contributes kind line entries) : ∀ entry ∈ entries, entry.1 ∈ kind.fields := by
  cases h with
  | blank _ => nofun
  | comment _ => nofun
  | entry hfield _ _ => exact List.forall_mem_singleton.mpr hfield

/-- All that the lines of a text contribute belongs to fields of the kind. -/
theorem mem_fields_of_forall₂ {lines : List (List Char)}
    {additions : List (List (Field × String))}
    (h : List.Forall₂ (Contributes kind) lines additions) :
    ∀ entry ∈ additions.flatten, entry.1 ∈ kind.fields := by
  induction h with
  | nil => nofun
  | cons hline _ ih =>
      rw [List.flatten_cons, List.forall_mem_append]
      exact ⟨mem_fields_of_contributes hline, ih⟩

/-- The entries of a field are those with its number. -/
theorem filterMap_number_eq {entries : List (Field × String)} (h : field ∈ kind.fields)
    (hentries : ∀ entry ∈ entries, entry.1 ∈ kind.fields) :
    entries.filterMap
        (fun entry => if entry.1.number = field.number then some entry.2 else none) =
      (entries.filter fun entry => entry.1 = field).map Prod.snd := by
  induction entries with
  | nil => rfl
  | cons entry entries ih =>
      obtain ⟨hentry, hentries⟩ := List.forall_mem_cons.mp hentries
      have hiff : entry.1.number = field.number ↔ entry.1 = field :=
        ⟨Field.eq_of_number_eq kind.isWellFormed_fields hentry h, congrArg Field.number⟩
      rw [List.filterMap_cons, ih hentries, List.filter_cons]
      by_cases hfield : entry.1 = field <;> simp [hfield, hiff]

/-- What lines add to the empty message are the values of their entries, for every field. -/
theorem foldl_addEntry_eq_iff {lines : List (List Char)}
    {additions : List (List (Field × String))} {message : Message kind}
    (h : List.Forall₂ (Contributes kind) lines additions) :
    additions.flatten.foldl Message.addEntry (Message.empty kind) = message ↔
      ∀ field ∈ kind.fields, message.values field.number =
        (additions.flatten.filter fun entry => entry.1 = field).map Prod.snd := by
  have hvalues (field : Field) (hfield : field ∈ kind.fields) :
      (additions.flatten.foldl Message.addEntry (Message.empty kind)).values field.number =
        (additions.flatten.filter fun entry => entry.1 = field).map Prod.snd := by
    rw [Message.values_foldl_addEntry _ _ hfield, Message.values_empty hfield,
      List.nil_append, filterMap_number_eq hfield (mem_fields_of_forall₂ h)]
  constructor
  · rintro rfl
    exact hvalues
  · intro hlists
    exact Message.ext_values fun field hfield =>
      (hvalues field hfield).trans (hlists field hfield).symm

/-- The report on an error in a line names the line and what is wrong with it. -/
theorem mentions_of_offends {phrase : String} {e : Error} (h : Offends kind line phrase e.fault)
    (origin : String) :
    e.Mentions origin (origin ++ ":" ++ toString e.line) ∧ e.Mentions origin phrase := by
  obtain ⟨ekind, number, fault⟩ := e
  let place := origin ++ ":" ++ toString number
  let opening := ekind.name ++ " parse error at "
  cases h with
  | malformed _ =>
      refine ⟨⟨_, List.mem_singleton_self _, ?_⟩, ⟨_, List.mem_singleton_self _, ?_⟩⟩
      · exact ⟨opening.toList, (": cannot parse line: " ++ Quoted.ofChars line).toList,
          by simp [opening]⟩
      · exact ⟨(opening ++ place ++ ": ").toList, (": " ++ Quoted.ofChars line).toList,
          by simp [opening, place]⟩
  | @unknownField name _ _ _ _ _ _ =>
      refine ⟨⟨_, List.mem_singleton_self _, ?_⟩, ⟨_, List.mem_singleton_self _, ?_⟩⟩
      · exact ⟨opening.toList, (": unknown field " ++ Quoted.ofChars name).toList,
          by simp [opening]⟩
      · exact ⟨(opening ++ place ++ ": ").toList, (" " ++ Quoted.ofChars name).toList,
          by simp [opening, place]⟩
  | @unsupportedEscape _ _ _ body _ _ _ _ =>
      refine ⟨⟨_, List.mem_cons_self, ?_⟩, ⟨_, List.mem_cons_of_mem _ List.mem_cons_self, ?_⟩⟩
      · exact ⟨"bad string value at ".toList, (": " ++ String.ofList body).toList, by simp⟩
      · exact List.infix_refl _

/-- **The texts that are accepted.** A text is read as a message exactly if each of its lines
is white space, a comment, or an entry of a field with supported escapes, and the list of
every field consists of the values of its entries, in the order of the lines. Every other
text is refused for its first line that is none of these. The error carries the number of
that line, counted from one, and says what is wrong with it: the line cannot be parsed, or
else its field is unknown, or else its body has an escape that is not supported. -/
theorem parse_decides_lines (kind : Kind) (text : List Char) :
    (∀ message : Message kind, parse kind text = .ok message ↔
      ∃ additions, List.Forall₂ (Contributes kind) (Line.cut text) additions ∧
        ∀ field ∈ kind.fields, message.values field.number =
          (additions.flatten.filter fun entry => entry.1 = field).map Prod.snd) ∧
    ∀ e, parse kind text = .error e ↔
      ∃ before line after phrase, Line.cut text = before ++ line :: after ∧
        (∀ earlier ∈ before, ∃ entries, Contributes kind earlier entries) ∧
        (∀ entries, ¬ Contributes kind line entries) ∧
        Offends kind line phrase e.fault ∧ e.kind = kind ∧ e.line = before.length + 1 ∧
        ∀ origin, e.Mentions origin (origin ++ ":" ++ toString (before.length + 1)) ∧
          e.Mentions origin phrase := by
  rw [parse, Line.split_eq_cut]
  refine ⟨fun message => ?_, fun e => ?_⟩
  · rw [addLines_eq_ok_iff]
    exact exists_congr fun additions => and_congr_right foldl_addEntry_eq_iff
  · rw [addLines_eq_error_iff]
    constructor
    · rintro ⟨before, line, after, phrase, hcut, hbefore, hnone, hoffends, hkind, hnumber⟩
      have hline : e.line = before.length + 1 := by omega
      refine ⟨before, line, after, phrase, hcut, hbefore, hnone, hoffends, hkind, hline, ?_⟩
      rw [← hline]
      exact mentions_of_offends hoffends
    · rintro ⟨before, line, after, phrase, hcut, hbefore, hnone, hoffends, hkind, hline, -⟩
      exact ⟨before, line, after, phrase, hcut, hbefore, hnone, hoffends, hkind, by omega⟩

end Text

end InferenceConfig
