import InferenceConfig.Text.Line
import Mathlib.Data.List.TakeWhile

/-!
# Lines and Entries

A line of the text form is read character by character, and each part of an entry ends at
the first character that cannot belong to it. Here the parts are given as a grammar, which
does not say where they end. It is unambiguous all the same: a line is read as an entry
exactly if it has the form of that entry.

A line may hold every character but a line feed. If it ends in a carriage return then that
is taken for a part of the line's end, so such a line is not read back.

## Main definitions

* `Line.cut` — the lines of a text, by its pieces between line feeds;
* `Line.Ends` — a text that ends where a line ends;
* `Line.IsSingle` — what may be written as a line;
* `Line.IsName`, `Line.IsBody`, `Line.IsTrailer` — the names of fields, what may stand
  between quotes, and what may follow them;
* `Line.IsFramed`, `Line.IsEntry` — the lines that are entries;
* `Line.Opens` — an entry up to its closing quote, whatever follows.

## Main results

* `Line.split_append` — the first line of a text;
* `Line.split_eq_cut` — the lines that are read are the pieces between line feeds;
* `Line.Ends.split_append`, `Line.Ends.length_split` — the lines of a text that ends where a line
  ends, and of one behind it;
* `Line.split_flatMap_append` — what is written as lines are the lines of the text;
* `Line.readBody?_eq_some_iff`, `Line.readQuoted?_eq_some_iff` — a body ends at its closing quote,
  whatever follows;
* `Line.Opens.unique` — a line has at most one name, one body and one tail;
* `Line.ofChars_eq_blank_iff`, `Line.ofChars_eq_entry_iff`, `Line.ofChars_eq_malformed_iff` —
  what a line is read as.
-/

namespace InferenceConfig

namespace Line

/-! ### The lines of a text -/

/-- A line feed at the start ends an empty line. -/
theorem split_lineFeed (rest : List Char) : split ('\n' :: rest) = [] :: split rest := by
  rw [split]
  · exact if_pos rfl
  · simp

/-- A character that ends no line is the first one of its line. -/
theorem split_cons_of_split {c : Char} {rest line : List Char} {lines : List (List Char)}
    (hc : c ≠ '\n') (hend : ∀ later, c = '\r' → rest ≠ '\n' :: later)
    (h : split rest = line :: lines) : split (c :: rest) = (c :: line) :: lines := by
  rw [split]
  · rw [if_neg hc, h]
  · intro later hcarriage hrest
    exact hend later hcarriage hrest

/-- The first line of a text goes up to its first line feed, unless a carriage return stands
there. -/
theorem split_append {line : List Char} (hline : '\n' ∉ line)
    (hlast : line.getLast? ≠ some '\r') (rest : List Char) :
    split (line ++ '\n' :: rest) = line :: split rest := by
  induction line with
  | nil => exact split_lineFeed rest
  | cons c line ih =>
      obtain ⟨hc, hline⟩ := List.ne_and_not_mem_of_not_mem_cons hline
      cases line with
      | nil =>
          refine split_cons_of_split (Ne.symm hc) ?_ (split_lineFeed rest)
          rintro later rfl
          simp at hlast
      | cons next line =>
          have hnext : next ≠ '\n' := fun heq => hline (heq ▸ List.mem_cons_self)
          rw [List.getLast?_cons_cons] at hlast
          refine split_cons_of_split (Ne.symm hc) ?_ (ih hline hlast)
          rintro later - hlater
          exact hnext (List.cons.inj hlater).1

/-- What stands behind the last line feed is a line. -/
theorem split_eq_singleton {line : List Char} (hline : '\n' ∉ line) (hne : line ≠ []) :
    split line = [line] := by
  induction line with
  | nil => exact absurd rfl hne
  | cons c line ih =>
      obtain ⟨hc, hline⟩ := List.ne_and_not_mem_of_not_mem_cons hline
      cases line with
      | nil =>
          rw [split]
          · exact if_neg (Ne.symm hc)
          · simp
      | cons next line =>
          refine split_cons_of_split (Ne.symm hc) ?_ (ih hline (List.cons_ne_nil next line))
          rintro later - hlater
          exact hline ((List.cons.inj hlater).1 ▸ List.mem_cons_self)

/-- A line without the carriage return that its line feed takes along. -/
def dropCarriage (line : List Char) : List Char :=
  if line.getLast? = some '\r' then line.dropLast else line

/-- The lines that the pieces between line feeds are. Behind the last piece there is no line
feed: it is a line only if it is not empty, and keeps its carriage return. -/
def ofPieces : (pieces : List (List Char)) → List (List Char)
  | [] => []
  | [last] => if last = [] then [] else [last]
  | piece :: pieces => dropCarriage piece :: ofPieces pieces

/-- The lines of a text, by its pieces between line feeds. -/
def cut (text : List Char) : List (List Char) :=
  ofPieces (text.splitOn '\n')

/-- A line feed starts a new piece, and any other character belongs to the first one. -/
theorem splitOn_cons (c : Char) (rest : List Char) :
    (c :: rest).splitOn '\n' =
      if c = '\n' then [] :: rest.splitOn '\n' else (rest.splitOn '\n').modifyHead (c :: ·) := by
  simp only [List.splitOn_eq_splitOnP, List.splitOnP_cons_eq_if_modifyHead, beq_iff_eq]

/-- A piece with others behind it is a line. -/
theorem ofPieces_cons {pieces : List (List Char)} (h : pieces ≠ []) (piece : List Char) :
    ofPieces (piece :: pieces) = dropCarriage piece :: ofPieces pieces := by
  obtain ⟨next, pieces, rfl⟩ := List.exists_cons_of_ne_nil h
  rfl

/-- The carriage return that is dropped is the last character. -/
theorem dropCarriage_cons {c : Char} {line : List Char} (h : c ≠ '\r' ∨ line ≠ []) :
    dropCarriage (c :: line) = c :: dropCarriage line := by
  cases line with
  | nil =>
      have hc : c ≠ '\r' := h.resolve_right fun hne => hne rfl
      simp [dropCarriage, hc]
  | cons next line =>
      simp only [dropCarriage, List.getLast?_cons_cons, List.dropLast_cons_cons]
      split <;> rfl

/-- Only the empty text has no lines. -/
theorem split_eq_nil_iff {text : List Char} : split text = [] ↔ text = [] := by
  fun_cases split text with
  | case1 => simp
  | case2 rest => simp
  | case3 rest _ => simp
  | case4 c rest _ _ _ => simp
  | case5 c rest _ _ line lines _ => simp

/-- A text with nothing before its first line feed starts with it. -/
theorem exists_lineFeed_of_splitOn {rest next : List Char} {pieces : List (List Char)}
    (h : rest.splitOn '\n' = [] :: next :: pieces) : ∃ later, rest = '\n' :: later := by
  cases rest with
  | nil => simp at h
  | cons c rest =>
      rw [splitOn_cons] at h
      split at h
      · next hfeed => exact ⟨rest, hfeed ▸ rfl⟩
      · obtain ⟨piece, others, hpieces⟩ :=
          List.exists_cons_of_ne_nil (List.splitOn_ne_nil '\n' rest)
        simp [hpieces] at h

/-- The lines that are read are the pieces between line feeds. Induction on the run: a
character that ends no line is put before the first piece of what follows. -/
theorem split_eq_cut (text : List Char) : split text = cut text := by
  fun_induction split text with
  | case1 => rfl
  | case2 rest ih =>
      rw [ih, cut, cut, splitOn_cons, if_neg (by decide), splitOn_cons, if_pos rfl,
        List.modifyHead_cons, ofPieces_cons (List.splitOn_ne_nil '\n' rest)]
      rfl
  | case3 rest _ ih =>
      rw [ih, cut, cut, splitOn_cons, if_pos rfl,
        ofPieces_cons (List.splitOn_ne_nil '\n' rest)]
      rfl
  | case4 c rest _ hfeed hnil _ =>
      obtain rfl := split_eq_nil_iff.mp hnil
      rw [cut, splitOn_cons, if_neg hfeed]
      rfl
  | case5 c rest hend hfeed line lines hsplit ih =>
      rw [hsplit, cut] at ih
      rw [cut, splitOn_cons, if_neg hfeed]
      obtain ⟨piece, pieces, hpieces⟩ :=
        List.exists_cons_of_ne_nil (List.splitOn_ne_nil '\n' rest)
      rw [hpieces] at ih ⊢
      rw [List.modifyHead_cons]
      cases pieces with
      | nil =>
          by_cases hempty : piece = []
          · simp [hempty, ofPieces] at ih
          · rw [ofPieces, if_neg hempty, List.cons.injEq] at ih
            obtain ⟨rfl, rfl⟩ := ih
            rw [ofPieces, if_neg (List.cons_ne_nil c line)]
      | cons next pieces =>
          -- A carriage return right before the line feed would have ended the line.
          have hkept : c ≠ '\r' ∨ piece ≠ [] := by
            rw [← not_and_or]
            rintro ⟨hcarriage, rfl⟩
            obtain ⟨later, hlater⟩ := exists_lineFeed_of_splitOn hpieces
            exact hend later hcarriage hlater
          rw [ofPieces_cons (List.cons_ne_nil _ _)] at ih
          obtain ⟨rfl, rfl⟩ := List.cons.inj ih
          rw [ofPieces_cons (List.cons_ne_nil _ _), dropCarriage_cons hkept]

/-- Only the last piece is a line without a line feed, so pieces before others lose their carriage
returns. -/
theorem ofPieces_append {later : List (List Char)} (h : later ≠ []) (pieces : List (List Char)) :
    ofPieces (pieces ++ later) = pieces.map dropCarriage ++ ofPieces later := by
  induction pieces with
  | nil => rfl
  | cons piece pieces ih =>
      rw [List.cons_append, ofPieces_cons (List.append_ne_nil_of_right_ne_nil pieces h), ih]
      rfl

/-- A line feed ends the last piece before it, and a new line starts behind it. -/
theorem split_append_lineFeed (before after : List Char) :
    split (before ++ '\n' :: after) = (before.splitOn '\n').map dropCarriage ++ split after := by
  rw [split_eq_cut, split_eq_cut, cut, cut, List.splitOn_append_cons_self,
    ofPieces_append (List.splitOn_ne_nil '\n' after)]

/-- There is one piece more than there are line feeds. -/
theorem length_splitOn (text : List Char) :
    (text.splitOn '\n').length = text.count '\n' + 1 := by
  induction text with
  | nil => rfl
  | cons c text ih =>
      rw [splitOn_cons, List.count_cons]
      by_cases hc : c = '\n'
      · rw [if_pos hc, List.length_cons, ih, if_pos (beq_iff_eq.mpr hc)]
      · rw [if_neg hc, List.length_modifyHead, ih, if_neg (by simpa using hc)]

/-- The text ends at the end of a line, if there is anything in it. -/
def Ends (text : List Char) : Prop :=
  text = [] ∨ text.getLast? = some '\n'

/-- What stands behind the end of a line has lines of its own. -/
theorem Ends.split_append {text : List Char} (h : Ends text) (later : List Char) :
    split (text ++ later) = split text ++ split later := by
  rcases h with rfl | h
  · rfl
  · obtain ⟨before, rfl⟩ := List.getLast?_eq_some_iff.mp h
    rw [List.append_assoc, List.singleton_append, split_append_lineFeed, split_append_lineFeed,
      split, List.append_nil]

/-- A text that ends at the end of a line has as many lines as line feeds. -/
theorem Ends.length_split {text : List Char} (h : Ends text) :
    (split text).length = text.count '\n' := by
  rcases h with rfl | h
  · rfl
  · obtain ⟨before, rfl⟩ := List.getLast?_eq_some_iff.mp h
    rw [split_append_lineFeed, split, List.append_nil, List.length_map, length_splitOn,
      List.count_append, List.count_singleton_self]

/-! ### Written lines -/

/-- The text may be written as a line: it holds no character that may end one. -/
def IsSingle (line : List Char) : Prop :=
  ∀ c ∈ line, c ≠ '\n' ∧ c ≠ '\r'

instance (line : List Char) : Decidable (IsSingle line) :=
  List.decidableBAll _ line

/-- Texts that keep to a line do so together. -/
theorem isSingle_append {first second : List Char} (hfirst : IsSingle first)
    (hsecond : IsSingle second) : IsSingle (first ++ second) :=
  List.forall_mem_append.mpr ⟨hfirst, hsecond⟩

/-- What keeps to a line item by item keeps to a line. -/
theorem isSingle_flatMap {α : Type} {items : List α} {write : α → List Char}
    (h : ∀ item ∈ items, IsSingle (write item)) : IsSingle (items.flatMap write) := by
  intro c hc
  obtain ⟨item, hitem, hc⟩ := List.mem_flatMap.mp hc
  exact h item hitem c hc

/-- Texts that keep to a line do so with separators between them. -/
theorem isSingle_intercalate {separator : List Char} {texts : List (List Char)}
    (hseparator : IsSingle separator) (htexts : ∀ text ∈ texts, IsSingle text) :
    IsSingle (separator.intercalate texts) := by
  induction texts with
  | nil => exact List.forall_mem_nil _
  | cons text texts ih =>
      obtain ⟨htext, hothers⟩ := List.forall_mem_cons.mp htexts
      cases texts with
      | nil => rwa [List.intercalate_singleton]
      | cons next texts =>
          rw [List.intercalate_cons_cons]
          exact isSingle_append (isSingle_append htext hseparator) (ih hothers)

/-- A text between two others keeps to a line if all three do. -/
theorem isSingle_between {opening text closing : String} (hopening : IsSingle opening.toList)
    (htext : IsSingle text.toList) (hclosing : IsSingle closing.toList) :
    IsSingle (opening ++ text ++ closing).toList := by
  rw [String.toList_append, String.toList_append]
  exact isSingle_append (isSingle_append hopening htext) hclosing

/-- A line contains no line feed. -/
theorem IsSingle.lineFeed_notMem {line : List Char} (h : IsSingle line) : '\n' ∉ line :=
  fun hmem => (h _ hmem).1 rfl

/-- A line does not end with a carriage return, so none is dropped from it. -/
theorem IsSingle.getLast?_ne {line : List Char} (h : IsSingle line) :
    line.getLast? ≠ some '\r' :=
  fun hlast => (h _ (List.mem_of_getLast? hlast)).2 rfl

/-- The lines of a text that was written line by line are those that were written, whatever
follows. Induction on the lines. -/
theorem split_flatMap_append {lines : List (List Char)} (h : ∀ line ∈ lines, IsSingle line)
    (rest : List Char) :
    split ((lines.flatMap fun line => line ++ ['\n']) ++ rest) = lines ++ split rest := by
  induction lines with
  | nil => rfl
  | cons line lines ih =>
      obtain ⟨hline, hlines⟩ := List.forall_mem_cons.mp h
      rw [List.flatMap_cons, List.append_assoc, List.append_assoc, List.singleton_append,
        split_append hline.lineFeed_notMem hline.getLast?_ne, ih hlines, List.cons_append]

/-- Lines that are written one after the other are split again. -/
theorem split_flatMap {lines : List (List Char)} (h : ∀ line ∈ lines, IsSingle line) :
    split (lines.flatMap fun line => line ++ ['\n']) = lines := by
  have happend := split_flatMap_append h []
  rwa [List.append_nil, split, List.append_nil] at happend

/-- A text that was written line by line ends where a line ends. -/
theorem ends_flatMap (lines : List (List Char)) :
    Ends (lines.flatMap fun line => line ++ ['\n']) := by
  rcases List.eq_nil_or_concat lines with rfl | ⟨before, line, rfl⟩
  · exact .inl rfl
  · right
    rw [List.concat_eq_append, List.flatMap_append, List.flatMap_singleton, ← List.append_assoc,
      List.getLast?_concat]

/-! ### The parts of an entry -/

/-- A name: an ASCII letter or an underscore, and more of these or digits. -/
def IsName (name : List Char) : Prop :=
  ∃ first more, name = first :: more ∧ isNameStart first = true ∧
    ∀ c ∈ more, isNameChar c = true

/-- What may stand between two quotes: every character but the quote and a backslash, and
pairs of a backslash and any character. -/
inductive IsBody (quote : Char) : List Char → Prop
  | nil : IsBody quote []
  | plain {c : Char} {body : List Char} :
      c ≠ quote → c ≠ '\\' → IsBody quote body → IsBody quote (c :: body)
  | escape {c : Char} {body : List Char} :
      IsBody quote body → IsBody quote ('\\' :: c :: body)

/-- What may follow an entry: white space, and perhaps a comment. -/
def IsTrailer (text : List Char) : Prop :=
  ∃ blanks comment, text = blanks ++ comment ∧ (∀ c ∈ blanks, isBlank c = true) ∧
    (comment = [] ∨ ∃ note, comment = '#' :: note)

/-- The line consists of the name and of the body between two quotes of the same sort, with
white space around the name, the colon and the quotes, and perhaps a comment at the end. It
does not matter what the name and the body are. -/
def IsFramed (line name : List Char) (quote : Char) (body : List Char) : Prop :=
  ∃ before gap between tail,
    line = before ++ (name ++ (gap ++ ':' :: (between ++ quote :: (body ++ quote :: tail)))) ∧
    (∀ c ∈ before ++ gap ++ between, isBlank c = true) ∧
    (quote = '\x22' ∨ quote = '\x27') ∧ IsTrailer tail

/-- The line is the entry with this name and this body: both of them, with white space
around the name, the colon and the quotes, and perhaps a comment at the end. -/
def IsEntry (line name body : List Char) : Prop :=
  ∃ before gap between quote tail,
    line = before ++ (name ++ (gap ++ ':' :: (between ++ quote :: (body ++ quote :: tail)))) ∧
    (∀ c ∈ before ++ gap ++ between, isBlank c = true) ∧ IsName name ∧
    (quote = '\x22' ∨ quote = '\x27') ∧ IsBody quote body ∧ IsTrailer tail

/-- The line goes up to the closing quote of the entry with this name and this body, and the
tail is what stands behind the quote. -/
def Opens (line name body tail : List Char) : Prop :=
  ∃ before gap between quote,
    line = before ++ (name ++ (gap ++ ':' :: (between ++ quote :: (body ++ quote :: tail)))) ∧
    (∀ c ∈ before ++ gap ++ between, isBlank c = true) ∧ IsName name ∧
    (quote = '\x22' ∨ quote = '\x27') ∧ IsBody quote body

/-- An entry is opened, and behind its closing quote nothing counts. -/
theorem isEntry_iff_exists_tail {line name body : List Char} :
    IsEntry line name body ↔ ∃ tail, Opens line name body tail ∧ IsTrailer tail := by
  constructor
  · rintro ⟨before, gap, between, quote, tail, hline, hblanks, hname, hquote, hbody, htail⟩
    exact ⟨tail, ⟨before, gap, between, quote, hline, hblanks, hname, hquote, hbody⟩, htail⟩
  · rintro ⟨tail, ⟨before, gap, between, quote, hline, hblanks, hname, hquote, hbody⟩, htail⟩
    exact ⟨before, gap, between, quote, tail, hline, hblanks, hname, hquote, hbody, htail⟩

/-- An entry is a name and a body in one of the two quotes, with the blanks and the comment that
its line allows. -/
theorem isEntry_iff_exists_quote {line name body : List Char} :
    IsEntry line name body ↔
      ∃ quote, IsFramed line name quote body ∧ IsName name ∧ IsBody quote body := by
  constructor
  · rintro ⟨before, gap, between, quote, tail, hline, hblanks, hname, hquote, hbody, htail⟩
    exact ⟨quote, ⟨before, gap, between, tail, hline, hblanks, hquote, htail⟩, hname, hbody⟩
  · rintro ⟨quote, ⟨before, gap, between, tail, hline, hblanks, hquote, htail⟩, hname, hbody⟩
    exact ⟨before, gap, between, quote, tail, hline, hblanks, hname, hquote, hbody, htail⟩

/-! ### White space -/

/-- What is dropped at the start of a text is white space. -/
theorem exists_blanks (text : List Char) :
    ∃ blanks, text = blanks ++ dropBlanks text ∧ ∀ c ∈ blanks, isBlank c = true :=
  ⟨text.takeWhile isBlank, List.takeWhile_append_dropWhile.symm,
    fun _ hc => List.mem_takeWhile_imp hc⟩

/-- White space before any other character is dropped. -/
theorem dropBlanks_append {blanks : List Char} {c : Char}
    (hblanks : ∀ b ∈ blanks, isBlank b = true) (hc : isBlank c = false) (rest : List Char) :
    dropBlanks (blanks ++ c :: rest) = c :: rest := by
  rw [dropBlanks, List.dropWhile_append_of_pos hblanks,
    List.dropWhile_cons_of_neg (by simp [hc])]

/-- Whether a text is white space and perhaps a comment is seen from its first character that
is not white space. -/
theorem isDone_iff {text : List Char} : isDone text = true ↔ IsTrailer text := by
  constructor
  · intro h
    obtain ⟨blanks, htext, hblanks⟩ := exists_blanks text
    rw [isDone] at h
    refine ⟨blanks, dropBlanks text, htext, hblanks, ?_⟩
    split at h
    · next hnil => exact .inl hnil
    · next c note hcons =>
        rw [beq_iff_eq] at h
        exact .inr ⟨note, by rw [hcons, h]⟩
  · rintro ⟨blanks, comment, rfl, hblanks, rfl | ⟨note, rfl⟩⟩
    · rw [List.append_nil, isDone, dropBlanks, List.dropWhile_eq_nil_iff.mpr hblanks]
    · rw [isDone, dropBlanks_append hblanks (by decide)]
      rfl

/-! ### Names -/

/-- No character of ASCII from the exclamation mark on is white space. -/
theorem isBlank_of_toNat {c : Char} (hlow : 0x20 < c.toNat) (hhigh : c.toNat < 0x80) :
    isBlank c = false := by
  simp only [isBlank, Bool.or_eq_false_iff, Bool.and_eq_false_iff, decide_eq_false_iff_not,
    beq_eq_false_iff_ne, ne_eq]
  omega

/-- No character of a name is blank. -/
theorem isBlank_of_isNameChar {c : Char} (h : isNameChar c = true) : isBlank c = false := by
  have hrange {low high : Char} (hbounds : 0x20 < low.toNat ∧ high.toNat < 0x80)
      (hc : low.val ≤ c.val ∧ c.val ≤ high.val) : isBlank c = false :=
    isBlank_of_toNat (Nat.lt_of_lt_of_le hbounds.1 (UInt32.le_iff_toNat_le.mp hc.1))
      (Nat.lt_of_le_of_lt (UInt32.le_iff_toNat_le.mp hc.2) hbounds.2)
  rcases Bool.or_eq_true_iff.mp h with halphanum | hunderscore
  · rcases Bool.or_eq_true_iff.mp halphanum with halpha | hdigit
    · rcases Bool.or_eq_true_iff.mp halpha with hupper | hlower
      · exact hrange (by decide) (of_decide_eq_true hupper)
      · obtain ⟨hlow, hhigh⟩ := Bool.and_eq_true_iff.mp hlower
        exact hrange (by decide) ⟨of_decide_eq_true hlow, of_decide_eq_true hhigh⟩
    · obtain ⟨hlow, hhigh⟩ := Bool.and_eq_true_iff.mp hdigit
      exact hrange (by decide) ⟨of_decide_eq_true hlow, of_decide_eq_true hhigh⟩
  · obtain rfl := beq_iff_eq.mp hunderscore
    decide

/-- A name may go on with what it may start with. -/
theorem isNameChar_of_isNameStart {c : Char} (h : isNameStart c = true) :
    isNameChar c = true := by
  simp only [isNameStart, isNameChar, Char.isAlphanum, Bool.or_eq_true] at h ⊢
  rcases h with h | h
  · exact .inl (.inl h)
  · exact .inr h

/-- Every character of a name is one that a name may contain. -/
theorem isNameChar_of_mem {name : List Char} {c : Char} (hname : IsName name)
    (hc : c ∈ name) : isNameChar c = true := by
  obtain ⟨first, more, rfl, hfirst, hmore⟩ := hname
  rcases List.mem_cons.mp hc with rfl | hc
  · exact isNameChar_of_isNameStart hfirst
  · exact hmore c hc

/-- A name ends at the first character that cannot belong to it. -/
theorem readName_append {name : List Char} {c : Char} (hname : IsName name)
    (hc : isNameChar c = false) (rest : List Char) :
    readName (name ++ c :: rest) = (name, c :: rest) := by
  obtain ⟨first, more, rfl, hfirst, hmore⟩ := hname
  rw [List.cons_append, readName, if_pos hfirst, List.takeWhile_append_of_pos hmore,
    List.dropWhile_append_of_pos hmore, List.takeWhile_cons_of_neg (by simp [hc]),
    List.dropWhile_cons_of_neg (by simp [hc]), List.append_nil]

/-- What is read as a name is one, unless nothing is read. -/
theorem readName_eq {text name rest : List Char} (h : readName text = (name, rest)) :
    text = name ++ rest ∧ (name = [] ∨ IsName name) := by
  cases text with
  | nil =>
      rw [readName, Prod.mk.injEq] at h
      obtain ⟨rfl, rfl⟩ := h
      exact ⟨rfl, .inl rfl⟩
  | cons c text =>
      rw [readName] at h
      split at h
      · next hc =>
          obtain ⟨rfl, rfl⟩ := Prod.mk.inj h
          refine ⟨?_, .inr ⟨c, _, rfl, hc, fun d hd => List.mem_takeWhile_imp hd⟩⟩
          rw [List.cons_append, List.takeWhile_append_dropWhile]
      · obtain ⟨rfl, rfl⟩ := Prod.mk.inj h
        exact ⟨rfl, .inl rfl⟩

/-! ### Bodies -/

/-- A body ends at its closing quote, whatever follows. -/
theorem readBody?_append {quote : Char} {body : List Char} (hquote : quote ≠ '\\')
    (hbody : IsBody quote body) (rest : List Char) :
    readBody? quote (body ++ quote :: rest) = some (body, rest) := by
  induction hbody with
  | nil =>
      rw [List.nil_append]
      unfold readBody?
      rw [if_pos rfl]
  | plain hc hbackslash _ ih =>
      rw [List.cons_append]
      unfold readBody?
      rw [if_neg hc, if_neg hbackslash, ih]
  | escape _ ih =>
      rw [List.cons_append, List.cons_append]
      unfold readBody?
      simp only [if_neg (Ne.symm hquote), if_true, ih]

/-- What is read as a body is one, and its closing quote follows. Induction on the run of the
reader. -/
theorem isBody_of_readBody? {quote : Char} {text body rest : List Char}
    (h : readBody? quote text = some (body, rest)) :
    text = body ++ quote :: rest ∧ IsBody quote body := by
  fun_induction readBody? quote text generalizing body with
  | case1 => simp at h
  | case2 =>
      obtain ⟨rfl, rfl⟩ := Prod.mk.inj (Option.some.inj h)
      exact ⟨rfl, .nil⟩
  | case3 => simp at h
  | case4 => simp at h
  | case5 _ _ _ _ hread _ ih =>
      obtain ⟨rfl, rfl⟩ := Prod.mk.inj (Option.some.inj h)
      obtain ⟨rfl, hbody⟩ := ih hread
      exact ⟨rfl, .escape hbody⟩
  | case6 => simp at h
  | case7 c _ hquote hbackslash _ _ hread ih =>
      obtain ⟨rfl, rfl⟩ := Prod.mk.inj (Option.some.inj h)
      obtain ⟨rfl, hbody⟩ := ih hread
      exact ⟨rfl, .plain hquote hbackslash hbody⟩

/-- A body is read exactly up to its closing quote, whatever follows. -/
theorem readBody?_eq_some_iff {quote : Char} {text body rest : List Char}
    (hquote : quote ≠ '\\') :
    readBody? quote text = some (body, rest) ↔
      text = body ++ quote :: rest ∧ IsBody quote body :=
  ⟨isBody_of_readBody?, fun ⟨htext, hbody⟩ => htext ▸ readBody?_append hquote hbody rest⟩

/-- What is read in quotes is a body between two quotes of one sort, whatever follows. -/
theorem readQuoted?_eq_some_iff {text body rest : List Char} :
    readQuoted? text = some (body, rest) ↔
      ∃ quote, text = quote :: (body ++ quote :: rest) ∧
        (quote = '\x22' ∨ quote = '\x27') ∧ IsBody quote body := by
  have hbackslash {quote : Char} (hquote : quote = '\x22' ∨ quote = '\x27') : quote ≠ '\\' := by
    rcases hquote with rfl | rfl <;> decide
  constructor
  · intro h
    cases text with
    | nil => simp [readQuoted?] at h
    | cons quote text =>
        rw [readQuoted?] at h
        split at h
        · next hquote =>
            obtain ⟨rfl, hbody⟩ := (readBody?_eq_some_iff (hbackslash hquote)).mp h
            exact ⟨quote, rfl, hquote, hbody⟩
        · simp at h
  · rintro ⟨quote, rfl, hquote, hbody⟩
    rw [readQuoted?, if_pos hquote]
    exact (readBody?_eq_some_iff (hbackslash hquote)).mpr ⟨rfl, hbody⟩

/-! ### Entries -/

/-- White space before a name is dropped. -/
theorem dropBlanks_append_name {blanks name : List Char}
    (hblanks : ∀ b ∈ blanks, isBlank b = true) (hname : IsName name) (rest : List Char) :
    dropBlanks (blanks ++ (name ++ rest)) = name ++ rest := by
  obtain ⟨first, more, rfl, hfirst, -⟩ := hname
  exact dropBlanks_append hblanks
    (isBlank_of_isNameChar (isNameChar_of_isNameStart hfirst)) (more ++ rest)

/-- A line with a name behind white space is neither blank nor a comment. -/
theorem isDone_append_name {blanks name : List Char}
    (hblanks : ∀ b ∈ blanks, isBlank b = true) (hname : IsName name) (rest : List Char) :
    isDone (blanks ++ (name ++ rest)) = false := by
  rw [isDone, dropBlanks_append_name hblanks hname]
  obtain ⟨first, more, rfl, hfirst, -⟩ := hname
  have hcomment : first ≠ '#' := by
    rintro rfl
    exact absurd hfirst (by decide)
  exact beq_eq_false_iff_ne.mpr hcomment

/-- The steps of reading an entry up to its closing quote, whatever follows. -/
theorem Opens.steps {line name body tail : List Char} (h : Opens line name body tail) :
    ∃ named quoted,
      readName (dropBlanks line) = (name, named) ∧ dropBlanks named = ':' :: quoted ∧
      readQuoted? (dropBlanks quoted) = some (body, tail) := by
  obtain ⟨before, gap, between, quote, rfl, hblanks, hname, hquote, hbody⟩ := h
  simp only [List.forall_mem_append] at hblanks
  obtain ⟨⟨hbefore, hgap⟩, hbetween⟩ := hblanks
  refine ⟨_, between ++ quote :: (body ++ quote :: tail), ?_,
    dropBlanks_append hgap (by decide) _, ?_⟩
  · -- Behind the name stands white space or the colon, and neither belongs to it.
    rw [dropBlanks_append_name hbefore hname]
    cases gap with
    | nil => exact readName_append hname (by decide) _
    | cons c gap =>
        refine readName_append hname (Bool.eq_false_iff.mpr fun hc => ?_) _
        have hblank := hgap c List.mem_cons_self
        rw [isBlank_of_isNameChar hc] at hblank
        simp at hblank
  · have hblank : isBlank quote = false := by
      rcases hquote with rfl | rfl <;> decide
    rw [dropBlanks_append hbetween hblank]
    exact readQuoted?_eq_some_iff.mpr ⟨quote, rfl, hquote, hbody⟩

/-- Name, body and tail of a line are unique. -/
theorem Opens.unique {line name body tail name' body' tail' : List Char}
    (h : Opens line name body tail) (h' : Opens line name' body' tail') :
    name = name' ∧ body = body' ∧ tail = tail' := by
  obtain ⟨named, quoted, hname, hcolon, hquoted⟩ := h.steps
  obtain ⟨named', quoted', hname', hcolon', hquoted'⟩ := h'.steps
  obtain ⟨rfl, rfl⟩ := Prod.mk.inj (hname.symm.trans hname')
  obtain ⟨-, rfl⟩ := List.cons.inj (hcolon.symm.trans hcolon')
  obtain ⟨rfl, rfl⟩ := Prod.mk.inj (Option.some.inj (hquoted.symm.trans hquoted'))
  exact ⟨rfl, rfl, rfl⟩

/-- What is put behind a line is put behind its tail. -/
theorem Opens.append {line name body tail : List Char} (h : Opens line name body tail)
    (later : List Char) : Opens (line ++ later) name body (tail ++ later) := by
  obtain ⟨before, gap, between, quote, rfl, hrest⟩ := h
  exact ⟨before, gap, between, quote, by simp only [List.append_assoc, List.cons_append], hrest⟩

/-- An entry is read as what it is. -/
theorem ofChars_of_isEntry {line name body : List Char} (h : IsEntry line name body) :
    ofChars line = .entry name body := by
  obtain ⟨tail, hopens, htail⟩ := isEntry_iff_exists_tail.mp h
  obtain ⟨named, quoted, hnamed, hcolon, hquoted⟩ := hopens.steps
  obtain ⟨before, gap, between, quote, rfl, hblanks, hname, -⟩ := hopens
  simp only [List.forall_mem_append] at hblanks
  rw [ofChars, if_neg (by simp [isDone_append_name hblanks.1.1 hname]), readEntry?, hnamed]
  obtain ⟨first, more, rfl, -, -⟩ := hname
  simp only [hcolon, hquoted, isDone_iff.mpr htail, ne_eq, not_true_eq_false, if_false, if_true]

/-- The steps of reading an entry, none of which fails. -/
theorem steps_of_readEntry? {line name body : List Char}
    (h : readEntry? line = some (name, body)) :
    ∃ named quoted tail,
      readName (dropBlanks line) = (name, named) ∧ name ≠ [] ∧
      dropBlanks named = ':' :: quoted ∧
      readQuoted? (dropBlanks quoted) = some (body, tail) ∧ isDone tail = true := by
  unfold readEntry? at h
  split at h
  · simp at h
  · next named hne hname =>
      split at h
      · simp at h
      · next colon quoted hnamed =>
          split at h
          · simp at h
          · next hcolon =>
              split at h
              · simp at h
              · next tail hquoted =>
                  split at h
                  · next hdone =>
                      obtain ⟨rfl, rfl⟩ := Prod.mk.inj (Option.some.inj h)
                      obtain rfl : colon = ':' := Decidable.of_not_not hcolon
                      exact ⟨_, quoted, tail, hname, hne, hnamed, hquoted, hdone⟩
                  · simp at h

/-- What is read as an entry is that entry. -/
theorem isEntry_of_readEntry? {line name body : List Char}
    (h : readEntry? line = some (name, body)) : IsEntry line name body := by
  obtain ⟨named, quoted, tail, hname, hne, hcolon, hquoted, hdone⟩ := steps_of_readEntry? h
  obtain ⟨before, hline, hbefore⟩ := exists_blanks line
  obtain ⟨gap, hnamed, hgap⟩ := exists_blanks named
  obtain ⟨between, hbody, hbetween⟩ := exists_blanks quoted
  obtain ⟨hsplit, hname⟩ := readName_eq hname
  obtain ⟨quote, htext, hquote, hform⟩ := readQuoted?_eq_some_iff.mp hquoted
  refine ⟨before, gap, between, quote, tail, ?_, ?_, hname.resolve_left hne, hquote, hform,
    isDone_iff.mp hdone⟩
  · rw [← htext, ← hbody, ← hcolon, ← hnamed, ← hsplit, ← hline]
  · simp only [List.forall_mem_append]
    exact ⟨⟨hbefore, hgap⟩, hbetween⟩

/-- A line is read as an entry exactly if it has the form of that entry. -/
theorem ofChars_eq_entry_iff {line name body : List Char} :
    ofChars line = .entry name body ↔ IsEntry line name body := by
  refine ⟨fun h => ?_, ofChars_of_isEntry⟩
  rw [ofChars] at h
  split at h
  · simp at h
  · split at h
    · simp at h
    · next hread =>
        obtain ⟨rfl, rfl⟩ := Line.entry.inj h
        exact isEntry_of_readEntry? hread

/-- A line is blank exactly if it is white space and perhaps a comment. -/
theorem ofChars_eq_blank_iff {line : List Char} : ofChars line = .blank ↔ IsTrailer line := by
  rw [← isDone_iff, ofChars]
  split
  · next hdone => simp [hdone]
  · next hdone => split <;> simp [hdone]

/-- A line is malformed exactly if it is neither blank nor an entry. -/
theorem ofChars_eq_malformed_iff {line : List Char} :
    ofChars line = .malformed ↔
      ¬ IsTrailer line ∧ ∀ name body, ¬ IsEntry line name body := by
  simp only [← ofChars_eq_blank_iff, ← ofChars_eq_entry_iff]
  cases ofChars line <;> simp

end Line

end InferenceConfig
