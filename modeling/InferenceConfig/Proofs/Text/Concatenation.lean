import InferenceConfig.Proofs.Text.Acceptance

/-!
# One Text Behind Another

Lines are read one by one, and nothing but the message and the number of the line is carried
from one to the next. So a text that ends where a line ends may be put before another text: the
first one is read as it is alone, and so is the second one, except that its lines have higher
numbers. The values of the second text come behind those of the first.

## Main results

* `Text.addLines_append` — a run over lines and more lines behind them;
* `Text.addLines_eq_ok_of_empty`, `Text.addLines_eq_error_of_empty` — a run from another message
  and another line number than that of a whole text;
* `Text.parse_append` — the outcome for two texts, one behind the other;
* `Text.parse_homomorphism` — the same, with the wording of the errors.
-/

namespace InferenceConfig

namespace Text

variable {kind : Kind} {lines : List (List Char)} {first : List Char}

/-! ### Runs over lines -/

/-- Lines behind others are read with the message that those leave, and with the number that
comes next. They are not looked at if there is an error before them. -/
theorem addLines_append (message : Message kind) (number : Nat)
    (lines later : List (List Char)) :
    addLines message number (lines ++ later) =
      match addLines message number lines with
      | .error e => .error e
      | .ok longer => addLines longer (number + lines.length) later := by
  induction lines generalizing message number with
  | nil => rfl
  | cons line lines ih =>
      rw [List.cons_append, addLines, addLines]
      cases addLine message line with
      | error fault => rfl
      | ok next =>
          simp only [ih, List.length_cons, Nat.add_assoc, Nat.add_comm 1]

/-- Lines that are read for the empty message are read for every message, whatever number the
first of them has. -/
theorem addLines_eq_ok_of_empty {longer : Message kind}
    (h : addLines (Message.empty kind) 1 lines = .ok longer) (message : Message kind)
    (number : Nat) : addLines message number lines = .ok (message.append longer) := by
  obtain ⟨additions, hadditions, rfl⟩ := addLines_eq_ok_iff.mp h
  exact addLines_eq_ok_iff.mpr ⟨additions, hadditions, Message.foldl_addEntry_eq_append message _⟩

/-- Lines that are refused for the empty message are refused for every message, and for the
same fault. The error tells how many lines come before. -/
theorem addLines_eq_error_of_empty {e : Error}
    (h : addLines (Message.empty kind) 1 lines = .error e) (message : Message kind)
    (count : Nat) :
    addLines message (1 + count) lines = .error { e with line := e.line + count } := by
  obtain ⟨before, line, after, phrase, hlines, hbefore, hnone, hoffends, hkind, hnumber⟩ :=
    addLines_eq_error_iff.mp h
  refine addLines_eq_error_iff.mpr
    ⟨before, line, after, phrase, hlines, hbefore, hnone, hoffends, hkind, ?_⟩
  simp only [hnumber]
  omega

/-! ### Two texts -/

/-- A text behind one that ends where a line ends is read as if it stood alone. Its values are
appended, and its errors are that many lines further down. -/
theorem parse_append (h : Line.Ends first) (second : List Char) :
    parse kind (first ++ second) =
      match parse kind first with
      | .error e => .error e
      | .ok message =>
        match parse kind second with
        | .error e => .error { e with line := e.line + first.count '\n' }
        | .ok later => .ok (message.append later) := by
  simp only [parse, h.split_append, addLines_append]
  cases addLines (Message.empty kind) 1 (Line.split first) with
  | error e => rfl
  | ok message =>
      cases hsecond : addLines (Message.empty kind) 1 (Line.split second) with
      | error e => simp only [addLines_eq_error_of_empty hsecond, h.length_split]
      | ok later => simp only [addLines_eq_ok_of_empty hsecond]

/-- The report on a line that is refused names the line in one place of its first message, and
the rest of it does not depend on the number of the line. -/
theorem exists_messages_of_offends {line : List Char} {phrase : String} {fault : Fault}
    (h : Offends kind line phrase fault) (origin : String) :
    ∃ opening closing causes, ∀ number,
      (Error.mk kind number fault).messages origin =
        (opening ++ (origin ++ ":" ++ toString number) ++ closing) :: causes := by
  cases h with
  | malformed _ =>
      exact ⟨kind.name ++ " parse error at ", ": cannot parse line: " ++ Quoted.ofChars line, [],
        fun number => by simp [Error.messages, String.append_assoc]⟩
  | @unknownField name _ _ _ _ _ _ =>
      exact ⟨kind.name ++ " parse error at ", ": unknown field " ++ Quoted.ofChars name, [],
        fun number => by simp [Error.messages, String.append_assoc]⟩
  | @unsupportedEscape _ _ letter body _ _ _ _ =>
      exact ⟨"bad string value at ", ": " ++ String.ofList body,
        [(Escape.Fault.unsupported letter).message],
        fun number => by simp [Error.messages, String.append_assoc]⟩

/-- The report on an error in a text names the line in one place. -/
theorem exists_messages_of_parse {text : List Char} {e : Error}
    (h : parse kind text = .error e) (origin : String) :
    ∃ opening closing causes, ∀ number,
      ({ e with line := number } : Error).messages origin =
        (opening ++ (origin ++ ":" ++ toString number) ++ closing) :: causes := by
  obtain ⟨before, line, after, phrase, -, -, -, hoffends, hkind, -⟩ := addLines_eq_error_iff.mp h
  obtain ⟨found, number, fault⟩ := e
  obtain rfl : found = kind := hkind
  exact exists_messages_of_offends hoffends origin

/-- **Reading a text is a homomorphism.** Let the first of two texts end where a line ends. If it
is refused then both of them together are refused with the same error. If both texts are read
then so are both together, as the field-wise concatenation of the two messages. If only the
second one is refused then both together are refused for the same fault, and the line that is
named for it is as many lines further down as there are line feeds in the first text; nothing
else in the report on the error depends on the first text. -/
theorem parse_homomorphism (h : Line.Ends first) (second : List Char) :
    (∀ e, parse kind first = .error e → parse kind (first ++ second) = .error e) ∧
    (∀ message later, parse kind first = .ok message → parse kind second = .ok later →
      ∃ joined, parse kind (first ++ second) = .ok joined ∧
        ∀ field ∈ kind.fields, joined.values field.number =
          message.values field.number ++ later.values field.number) ∧
    ∀ message e, parse kind first = .ok message → parse kind second = .error e →
      parse kind (first ++ second) = .error { e with line := e.line + first.count '\n' } ∧
      ∀ origin, ∃ opening closing causes,
        e.messages origin =
          (opening ++ (origin ++ ":" ++ toString e.line) ++ closing) :: causes ∧
        ({ e with line := e.line + first.count '\n' } : Error).messages origin =
          (opening ++ (origin ++ ":" ++ toString (e.line + first.count '\n')) ++ closing) ::
            causes := by
  rw [parse_append h]
  refine ⟨fun e hfirst => ?_, fun message later hfirst hsecond => ?_,
    fun message e hfirst hsecond => ⟨?_, fun origin => ?_⟩⟩
  · rw [hfirst]
  · rw [hfirst, hsecond]
    exact ⟨_, rfl, fun field hfield => Message.values_append message later hfield⟩
  · rw [hfirst, hsecond]
  · obtain ⟨opening, closing, causes, hmessages⟩ := exists_messages_of_parse hsecond origin
    exact ⟨opening, closing, causes, hmessages e.line, hmessages _⟩

/-- A comment that ends in a carriage return and a line feed, and an entry. A line behind them
that is malformed is the fourth one of both texts together, and an entry behind them is
appended. -/
theorem parse_homomorphism_model :
    parse .model ("# tags\r\ntag: \x22a\x22\n".toList ++ "\ntag: gpu".toList) =
        .error ⟨.model, 4, .malformed "tag: gpu".toList⟩ ∧
      ∃ joined : ModelSpec,
        parse .model ("# tags\r\ntag: \x22a\x22\n".toList ++ "tag: \x22b\x22".toList) =
            .ok joined ∧
          ∀ field ∈ Kind.model.fields, @Message.values .model joined field.number =
            @Message.values .model ⟨[], ["a"]⟩ field.number ++
              @Message.values .model ⟨[], ["b"]⟩ field.number := by
  have hends : Line.Ends "# tags\r\ntag: \x22a\x22\n".toList := .inr (by decide +kernel)
  have hfirst : parse .model "# tags\r\ntag: \x22a\x22\n".toList =
      .ok (⟨[], ["a"]⟩ : ModelSpec) := by decide +kernel
  have hmalformed : parse .model "\ntag: gpu".toList =
      .error ⟨.model, 2, .malformed "tag: gpu".toList⟩ := by decide +kernel
  have hentry : parse .model "tag: \x22b\x22".toList = .ok (⟨[], ["b"]⟩ : ModelSpec) := by
    decide +kernel
  obtain ⟨-, -, herror⟩ := parse_homomorphism hends "\ntag: gpu".toList
  obtain ⟨-, hok, -⟩ := parse_homomorphism hends "tag: \x22b\x22".toList
  exact ⟨(herror _ _ hfirst hmalformed).1, hok _ _ hfirst hentry⟩

end Text

end InferenceConfig
