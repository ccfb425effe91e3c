import InferenceConfig.Fault
import InferenceConfig.Proofs.Text.Acceptance

/-!
# Line Endings and White Space Around Lines

What a line is read as does not depend on the white space at its ends. At its start white space is
dropped before anything else is looked at. At its end it stands behind the closing quote of an
entry, in its comment or in what is no entry anyway: a quote is not white space, so white space
closes no body, not even behind a backslash that keeps it company.

A carriage return is white space too. So it makes no difference whether it is taken for a part of
the line's end, and a text is read like its pieces between line feeds. Two texts whose pieces
differ in white space at their ends only are read as the same message, or refused at the same line
for the same class of faults.

## Main definitions

* `Line.Pads` — a line with white space put around it, before the carriage return at its end;
* `Text.Pads` — a text with white space put around its lines;
* `Text.withCarriages` — a text whose lines end in a carriage return and a line feed;
* `Text.Fault.Alike` — faults of the same class.

## Main results

* `Line.ofChars_pad` — what a line with white space around it is read as;
* `Text.mapError_addLines_congr` — a run over lines that are read alike;
* `Text.mapError_parse_of_pads` — the outcome for a text with white space around its lines;
* `Text.parse_withCarriages` — the outcome for the other style of line ends;
* `Text.parse_ignores_margins` — both, with the classes of faults.
-/

namespace InferenceConfig

namespace Line

/-! ### White space around a line -/

variable {before line after : List Char}

/-- Blanks before a line do not matter. -/
theorem ofChars_append_left (h : ∀ c ∈ before, isBlank c = true) (line : List Char) :
    ofChars (before ++ line) = ofChars line := by
  have hdrop : dropBlanks (before ++ line) = dropBlanks line := List.dropWhile_append_of_pos h
  have hdone : isDone (before ++ line) = isDone line := by rw [isDone, isDone, hdrop]
  have hread : readEntry? (before ++ line) = readEntry? line := by
    unfold readEntry?
    rw [hdrop]
  rw [ofChars, ofChars, hdone, hread]

/-- Blanks behind what may follow an entry do not matter. -/
theorem isTrailer_append_iff (h : ∀ c ∈ after, isBlank c = true) :
    IsTrailer (line ++ after) ↔ IsTrailer line := by
  have hafter : after.dropWhile isBlank = [] := List.dropWhile_eq_nil_iff.mpr h
  rw [← isDone_iff, ← isDone_iff, isDone, isDone, dropBlanks, dropBlanks, List.dropWhile_append,
    hafter]
  cases line.dropWhile isBlank <;> rfl

/-- White space at the end of a line stands behind the closing quote of an entry, for a quote is
not white space. -/
theorem Opens.of_append {name body tail : List Char} (h : ∀ c ∈ after, isBlank c = true)
    (hopens : Opens (line ++ after) name body tail) :
    ∃ own, tail = own ++ after ∧ Opens line name body own := by
  obtain ⟨before, gap, between, quote, hline, hblanks, hname, hquote, hbody⟩ := hopens
  have hopening (own : List Char) :
      before ++ (name ++ (gap ++ ':' :: (between ++ quote :: (body ++ quote :: own)))) =
        ((before ++ (name ++ (gap ++ ':' :: (between ++ quote :: body)))) ++ [quote]) ++ own := by
    simp only [List.append_assoc, List.cons_append, List.nil_append]
  rw [hopening] at hline
  have hfound {own : List Char} (hown : line =
      ((before ++ (name ++ (gap ++ ':' :: (between ++ quote :: body)))) ++ [quote]) ++ own) :
      Opens line name body own :=
    ⟨before, gap, between, quote, hown.trans (hopening own).symm, hblanks, hname, hquote, hbody⟩
  rcases List.append_eq_append_iff.mp hline with ⟨lost, hlost, hafter⟩ | ⟨own, hown, htail⟩
  · rcases List.eq_nil_or_concat lost with rfl | ⟨others, c, rfl⟩
    · rw [List.append_nil] at hlost
      exact ⟨[], hafter.symm, hfound (by rw [hlost, List.append_nil])⟩
    · rw [List.concat_eq_append, ← List.append_assoc line others] at hlost
      obtain ⟨-, hc⟩ := List.append_inj' hlost rfl
      have hblank : isBlank c = true := h c (by simp [hafter])
      obtain rfl : quote = c := (List.cons.inj hc).1
      rcases hquote with rfl | rfl <;> exact absurd hblank (by decide)
  · exact ⟨own, htail, hfound hown⟩

/-- Blanks behind an entry do not matter, for they only make its trailer longer. -/
theorem isEntry_append_iff {name body : List Char} (h : ∀ c ∈ after, isBlank c = true) :
    IsEntry (line ++ after) name body ↔ IsEntry line name body := by
  rw [isEntry_iff_exists_tail, isEntry_iff_exists_tail]
  constructor
  · rintro ⟨tail, hopens, htail⟩
    obtain ⟨own, rfl, hown⟩ := hopens.of_append h
    exact ⟨own, hown, (isTrailer_append_iff h).mp htail⟩
  · rintro ⟨tail, hopens, htail⟩
    exact ⟨tail ++ after, hopens.append after, (isTrailer_append_iff h).mpr htail⟩

/-- Blanks behind a line do not matter. -/
theorem ofChars_append_right (h : ∀ c ∈ after, isBlank c = true) (line : List Char) :
    ofChars (line ++ after) = ofChars line := by
  cases hline : ofChars line with
  | blank =>
      rw [ofChars_eq_blank_iff] at hline ⊢
      exact (isTrailer_append_iff h).mpr hline
  | entry name body =>
      rw [ofChars_eq_entry_iff] at hline ⊢
      exact (isEntry_append_iff h).mpr hline
  | malformed =>
      rw [ofChars_eq_malformed_iff] at hline ⊢
      simpa only [isTrailer_append_iff h, isEntry_append_iff h] using hline

/-- White space around a line does not change what it is read as. -/
theorem ofChars_pad (hbefore : ∀ c ∈ before, isBlank c = true)
    (hafter : ∀ c ∈ after, isBlank c = true) (line : List Char) :
    ofChars (before ++ (line ++ after)) = ofChars line := by
  rw [ofChars_append_left hbefore, ofChars_append_right hafter]

/-- A carriage return is blank. -/
theorem isBlank_of_mem_carriage : ∀ c ∈ ['\r'], isBlank c = true :=
  List.forall_mem_singleton.mpr (by decide)

/-- The carriage return that a line feed takes along does not change what the line is read as. -/
theorem ofChars_dropCarriage (line : List Char) : ofChars (dropCarriage line) = ofChars line := by
  rw [dropCarriage]
  split
  · next hlast =>
      obtain ⟨before, rfl⟩ := List.getLast?_eq_some_iff.mp hlast
      rw [List.dropLast_concat, ofChars_append_right isBlank_of_mem_carriage]
  · rfl

/-- The second line is the first one with white space put around it, before the carriage return
that may end it. -/
def Pads (line padded : List Char) : Prop :=
  ∃ before text after ending, line = text ++ ending ∧
    padded = before ++ (text ++ (after ++ ending)) ∧ (∀ c ∈ before ++ after, isBlank c = true) ∧
    (ending = [] ∨ ending = ['\r'])

/-- Blanks behind a line are padding. -/
theorem pads_append_right (h : ∀ c ∈ after, isBlank c = true) (line : List Char) :
    Pads line (line ++ after) :=
  ⟨[], line, after, [], (List.append_nil line).symm, by rw [List.append_nil, List.nil_append],
    h, .inl rfl⟩

/-- Padding does not change what is read from a line. -/
theorem Pads.ofChars_eq {padded : List Char} (h : Pads line padded) :
    ofChars line = ofChars padded := by
  obtain ⟨before, text, after, ending, rfl, rfl, hblanks, hending⟩ := h
  obtain ⟨hbefore, hafter⟩ := List.forall_mem_append.mp hblanks
  have hcarriage : ∀ c ∈ ending, isBlank c = true := by
    rcases hending with rfl | rfl
    · exact List.forall_mem_nil _
    · exact isBlank_of_mem_carriage
  rw [ofChars_append_right hcarriage, ofChars_pad hbefore]
  exact List.forall_mem_append.mpr ⟨hafter, hcarriage⟩

end Line

namespace Text

variable {kind : Kind}

/-! ### Faults without the text of the line -/

/-- The fault, without the text of a line that cannot be parsed. -/
def Fault.withoutLine : Fault → Fault
  | .malformed _ => .malformed []
  | fault => fault

/-- The error, without the text of a line that cannot be parsed. -/
def Error.withoutLine (e : Error) : Error :=
  { e with fault := e.fault.withoutLine }

/-- Faults that differ in the text of a line only are those of lines that cannot be parsed. -/
theorem Fault.eq_or_malformed_of_withoutLine_eq {fault fault' : Fault}
    (h : fault.withoutLine = fault'.withoutLine) :
    fault = fault' ∨ ∃ line line', fault = .malformed line ∧ fault' = .malformed line' := by
  -- Only the fault of a line that cannot be parsed is changed, and it is not turned into another.
  have hkept {fault : Fault} (hfault : ∀ line, fault ≠ .malformed line) :
      fault.withoutLine = fault := by
    cases fault with
    | malformed line => exact absurd rfl (hfault line)
    | unknownField name => rfl
    | badValue body cause => rfl
    | noStorage field => rfl
  by_cases hfault : ∃ line, fault = .malformed line
  · obtain ⟨line, rfl⟩ := hfault
    by_cases hfault' : ∃ line', fault' = .malformed line'
    · obtain ⟨line', rfl⟩ := hfault'
      exact .inr ⟨line, line', rfl, rfl⟩
    · rw [hkept (not_exists.mp hfault')] at h
      exact absurd ⟨[], h.symm⟩ hfault'
  · by_cases hfault' : ∃ line', fault' = .malformed line'
    · obtain ⟨line', rfl⟩ := hfault'
      rw [hkept (not_exists.mp hfault)] at h
      exact absurd ⟨[], h⟩ hfault
    · rw [hkept (not_exists.mp hfault), hkept (not_exists.mp hfault')] at h
      exact .inl h

/-- Lines that are read alike do the same to a message. -/
theorem mapError_addLine_congr {line line' : List Char}
    (h : Line.ofChars line = Line.ofChars line') (message : Message kind) :
    (addLine message line).mapError Fault.withoutLine =
      (addLine message line').mapError Fault.withoutLine := by
  rw [addLine, addLine, h]
  cases Line.ofChars line' <;> rfl

/-- Runs go on alike behind lines that are read alike. -/
theorem mapError_addLines_cons {line line' : List Char} {lines lines' : List (List Char)}
    {number : Nat} (h : Line.ofChars line = Line.ofChars line')
    (hlines : ∀ message : Message kind,
      (addLines message (number + 1) lines).mapError Error.withoutLine =
        (addLines message (number + 1) lines').mapError Error.withoutLine)
    (message : Message kind) :
    (addLines message number (line :: lines)).mapError Error.withoutLine =
      (addLines message number (line' :: lines')).mapError Error.withoutLine := by
  have hline := mapError_addLine_congr h message
  rw [addLines, addLines]
  cases hfirst : addLine message line with
  | error fault =>
      cases hsecond : addLine message line' with
      | error fault' =>
          rw [hfirst, hsecond] at hline
          have hfault : fault.withoutLine = fault'.withoutLine := Except.error.inj hline
          simp only [Except.mapError, Error.withoutLine, hfault]
      | ok next => simp [hfirst, hsecond, Except.mapError] at hline
  | ok next =>
      cases hsecond : addLine message line' with
      | error fault => simp [hfirst, hsecond, Except.mapError] at hline
      | ok next' =>
          rw [hfirst, hsecond] at hline
          obtain rfl : next = next' := Except.ok.inj hline
          exact hlines next

/-- Runs over lines that are read alike have outcomes that are alike. Induction on the lines. -/
theorem mapError_addLines_congr {lines lines' : List (List Char)}
    (h : List.Forall₂ (fun line line' => Line.ofChars line = Line.ofChars line') lines lines')
    (message : Message kind) (number : Nat) :
    (addLines message number lines).mapError Error.withoutLine =
      (addLines message number lines').mapError Error.withoutLine := by
  induction h generalizing message number with
  | nil => rfl
  | cons hline _ ih => exact mapError_addLines_cons hline (fun next => ih next (number + 1)) message

/-- Lines are read like the pieces that they are, with a piece behind the last line feed even if
it is empty. -/
theorem mapError_addLines_ofPieces (message : Message kind) (number : Nat)
    (pieces : List (List Char)) :
    (addLines message number (Line.ofPieces pieces)).mapError Error.withoutLine =
      (addLines message number pieces).mapError Error.withoutLine := by
  fun_induction Line.ofPieces pieces generalizing message number with
  | case1 => rfl
  | case2 => rfl
  | case3 last hlast => rfl
  | case4 piece pieces hpieces ih =>
      exact mapError_addLines_cons (Line.ofChars_dropCarriage piece)
        (fun next => ih next (number + 1)) message

/-! ### Texts with other margins -/

/-- The second text is the first one with white space put around its lines. It has as many line
feeds, so none of them is put there. -/
def Pads (text other : List Char) : Prop :=
  List.Forall₂ Line.Pads (text.splitOn '\n') (other.splitOn '\n')

/-- The text with a carriage return before each line feed. -/
def withCarriages (text : List Char) : List Char :=
  text.flatMap fun c => if c = '\n' then ['\r', '\n'] else [c]

/-- A text with white space put around its lines is read alike. -/
theorem mapError_parse_of_pads {text other : List Char} (h : Pads text other) :
    (parse kind text).mapError Error.withoutLine =
      (parse kind other).mapError Error.withoutLine := by
  rw [parse, parse, Line.split_eq_cut, Line.split_eq_cut, Line.cut, Line.cut,
    mapError_addLines_ofPieces, mapError_addLines_ofPieces]
  exact mapError_addLines_congr (h.imp fun _ _ hline => hline.ofChars_eq) _ _

/-- With carriage returns, each piece between line feeds is as before or has one at its end.
Induction on the text: a character that is no line feed is put before the first piece. -/
theorem forall₂_splitOn_withCarriages (text : List Char) :
    List.Forall₂ (fun piece piece' => piece' = piece ∨ piece' = piece ++ ['\r'])
      (text.splitOn '\n') ((withCarriages text).splitOn '\n') := by
  induction text with
  | nil => exact .cons (.inl rfl) .nil
  | cons c text ih =>
      rw [withCarriages, List.flatMap_cons, ← withCarriages]
      by_cases hc : c = '\n'
      · rw [if_pos hc, List.cons_append, List.cons_append, List.nil_append, Line.splitOn_cons,
          if_pos hc, Line.splitOn_cons, if_neg (by decide), Line.splitOn_cons, if_pos rfl]
        exact .cons (.inr rfl) ih
      · rw [if_neg hc, List.singleton_append, Line.splitOn_cons, if_neg hc, Line.splitOn_cons,
          if_neg hc]
        generalize text.splitOn '\n' = pieces, (withCarriages text).splitOn '\n' = pieces' at ih ⊢
        cases ih with
        | nil => exact .nil
        | cons hpiece hpieces =>
            exact .cons (hpiece.imp (congrArg (c :: ·)) (congrArg (c :: ·))) hpieces

/-- A carriage return before a line feed is white space at the end of the line. -/
theorem pads_withCarriages (text : List Char) : Pads text (withCarriages text) := by
  refine (forall₂_splitOn_withCarriages text).imp fun piece piece' hpiece => ?_
  rcases hpiece with hsame | hcarriage
  · have hpads : Line.Pads piece (piece ++ []) := Line.pads_append_right (by simp) piece
    rw [List.append_nil] at hpads
    exact hsame ▸ hpads
  · exact hcarriage ▸ Line.pads_append_right Line.isBlank_of_mem_carriage piece

/-- If there is no carriage return in a text, those that are put before its line feeds are taken
along by them. Induction on the text. -/
theorem split_withCarriages {text : List Char} (h : '\r' ∉ text) :
    Line.split (withCarriages text) = Line.split text := by
  induction text with
  | nil => rfl
  | cons c text ih =>
      obtain ⟨hcarriage, htext⟩ := List.ne_and_not_mem_of_not_mem_cons h
      rw [withCarriages, List.flatMap_cons, ← withCarriages]
      by_cases hc : c = '\n'
      · rw [if_pos hc, hc, Line.split_lineFeed, ← ih htext]
        rfl
      · rw [if_neg hc, List.singleton_append, Line.split, Line.split, ih htext]
        · exact fun later heq => absurd heq hcarriage.symm
        · exact fun later heq => absurd heq hcarriage.symm

/-- A text without carriage returns is read as it is with the other style of line ends. -/
theorem parse_withCarriages {text : List Char} (h : '\r' ∉ text) :
    parse kind (withCarriages text) = parse kind text := by
  rw [parse, parse, split_withCarriages h]

/-! ### Faults of one class -/

/-- The faults are of the same class: lines that cannot be parsed, unknown fields or escapes that
are not supported. Except for the line that cannot be parsed they are the same faults. -/
inductive Fault.Alike : Fault → Fault → Prop
  | malformed (line line' : List Char) : Alike (.malformed line) (.malformed line')
  | unknownField (name : List Char) : Alike (.unknownField name) (.unknownField name)
  | unsupportedEscape (body : List Char) (letter : Char) :
      Alike (.badValue body (.unsupported letter)) (.badValue body (.unsupported letter))

/-- The fault of a line is alike any fault that differs at most in the text of the line. -/
theorem Offends.alike {line : List Char} {phrase : String} {fault fault' : Fault}
    (h : Offends kind line phrase fault) (hsame : fault.withoutLine = fault'.withoutLine) :
    fault.Alike fault' := by
  rcases Fault.eq_or_malformed_of_withoutLine_eq hsame with rfl | ⟨_, line', rfl, rfl⟩
  · cases h with
    | malformed _ => exact .malformed line line
    | @unknownField name _ _ _ _ _ _ => exact .unknownField name
    | @unsupportedEscape _ _ letter body _ _ _ _ => exact .unsupportedEscape body letter
  · exact .malformed _ line'

/-- Where two texts are read alike and one of them is refused, the other one is refused in the
same line for a fault of the same class. -/
theorem exists_error_of_mapError_eq {text other : List Char} {e : Error}
    (halike : (parse kind text).mapError Error.withoutLine =
      (parse kind other).mapError Error.withoutLine)
    (h : parse kind text = .error e) :
    ∃ e', parse kind other = .error e' ∧ e'.kind = e.kind ∧ e'.line = e.line ∧
      e.fault.Alike e'.fault := by
  rw [h] at halike
  obtain ⟨e', hother, hsame⟩ := mapError_eq_error_iff.mp halike.symm
  obtain ⟨hkind, hline, hfault⟩ := Error.mk.inj hsame
  obtain ⟨_, _, _, _, -, -, -, hoffends, -⟩ := addLines_eq_error_iff.mp h
  exact ⟨e', hother, hkind, hline, hoffends.alike hfault.symm⟩

/-- Texts that are read alike are read as the same messages. -/
theorem parse_eq_ok_of_mapError_eq {text other : List Char} {message : Message kind}
    (halike : (parse kind text).mapError Error.withoutLine =
      (parse kind other).mapError Error.withoutLine)
    (h : parse kind text = .ok message) : parse kind other = .ok message := by
  rw [h] at halike
  exact mapError_eq_ok_iff.mp halike.symm

/-- **Line endings and white space around lines do not matter.** Let another text be the text with
a carriage return before each line feed, or with any white space put around its lines. Then both
texts are read as the same message, or both are refused, in the same line and for a fault of the
same class. If the text has no carriage return of its own, then with one before each line feed it
has the same outcome, the texts of its errors included. -/
theorem parse_ignores_margins {text other : List Char}
    (h : other = withCarriages text ∨ Pads text other) :
    (∀ message, parse kind other = .ok message ↔ parse kind text = .ok message) ∧
    (∀ e, parse kind text = .error e →
      ∃ e', parse kind other = .error e' ∧ e'.kind = e.kind ∧ e'.line = e.line ∧
        e.fault.Alike e'.fault) ∧
    (∀ e, parse kind other = .error e →
      ∃ e', parse kind text = .error e' ∧ e'.kind = e.kind ∧ e'.line = e.line ∧
        e.fault.Alike e'.fault) ∧
    ('\r' ∉ text → other = withCarriages text → parse kind other = parse kind text) := by
  have hpads : Pads text other := by
    rcases h with rfl | hpads
    · exact pads_withCarriages text
    · exact hpads
  have halike : (parse kind text).mapError Error.withoutLine =
      (parse kind other).mapError Error.withoutLine := mapError_parse_of_pads hpads
  refine ⟨fun message => ⟨?_, ?_⟩, fun e => ?_, fun e => ?_, ?_⟩
  · exact parse_eq_ok_of_mapError_eq halike.symm
  · exact parse_eq_ok_of_mapError_eq halike
  · exact exists_error_of_mapError_eq halike
  · exact exists_error_of_mapError_eq halike.symm
  · rintro hcarriage rfl
    exact parse_withCarriages hcarriage

/-- An entry, and a line whose quote is not closed. White space around both, even behind the last
backslash, leaves the second line the one that cannot be parsed, and with the other style of line
ends the error is the same. -/
theorem parse_ignores_margins_model :
    (∃ e, parse .model "\u0085tag: \x22a\x22\u3000\r\n\ttag: \x22b\\ ".toList = .error e ∧
      e.kind = .model ∧ e.line = 2 ∧ Fault.Alike (.malformed "tag: \x22b\\".toList) e.fault) ∧
    parse .model (withCarriages "tag: \x22a\x22\ntag: \x22b\\".toList) =
      .error ⟨.model, 2, .malformed "tag: \x22b\\".toList⟩ := by
  have hpads : Pads "tag: \x22a\x22\r\ntag: \x22b\\".toList
      "\u0085tag: \x22a\x22\u3000\r\n\ttag: \x22b\\ ".toList := by
    have hfirst : Line.Pads "tag: \x22a\x22\r".toList "\u0085tag: \x22a\x22\u3000\r".toList :=
      ⟨['\u0085'], "tag: \x22a\x22".toList, ['\u3000'], ['\r'], by decide +kernel,
        by decide +kernel, List.all_eq_true.mp (by decide), .inr rfl⟩
    have hsecond : Line.Pads "tag: \x22b\\".toList "\ttag: \x22b\\ ".toList :=
      ⟨['\t'], "tag: \x22b\\".toList, [' '], [], by decide +kernel, by decide +kernel,
        List.all_eq_true.mp (by decide), .inl rfl⟩
    exact .cons hfirst (.cons hsecond .nil)
  have herror : parse .model "tag: \x22a\x22\r\ntag: \x22b\\".toList =
      .error ⟨.model, 2, .malformed "tag: \x22b\\".toList⟩ := by decide +kernel
  have hplain : parse .model "tag: \x22a\x22\ntag: \x22b\\".toList =
      .error ⟨.model, 2, .malformed "tag: \x22b\\".toList⟩ := by decide +kernel
  obtain ⟨-, hrefused, -⟩ := parse_ignores_margins (.inr hpads)
  obtain ⟨-, -, -, hsame⟩ := parse_ignores_margins (.inl rfl)
  exact ⟨hrefused _ herror, (hsame (by decide +kernel) rfl).trans hplain⟩

end Text

end InferenceConfig
