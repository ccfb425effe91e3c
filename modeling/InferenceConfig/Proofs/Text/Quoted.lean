import InferenceConfig.Text.Quoted
import Mathlib.Data.List.Basic

/-!
# Quoted Texts End Where They End

A quoted text is read without looking ahead: where it ends is seen from the text itself, and so is
what it quotes, whatever stands behind it. A character is shown by itself or behind a backslash,
and an escape ends with its letter or with the brace behind its digits. The closing quote begins
no shown character, and the closing bracket of a list begins no further element.

So two texts that begin with quoted strings, or with lists of these, begin with the same ones if
they are equal.

## Main definitions

* `Quoted.SelfDelimiting` — a way of writing that determines what is written, and its end;
* `Quoted.Shows` — the three ways in which a character is shown.

## Main results

* `Quoted.flatMap_append_inj` — items one after another, up to a character that begins none;
* `Quoted.toDigits_injective` — hexadecimal digits determine their number;
* `Quoted.selfDelimiting_escape`, `Quoted.selfDelimiting_ofString`,
  `Quoted.selfDelimiting_ofList` — characters, strings and lists of strings;
* `Quoted.ofList_injective` — lists that are shown alike are equal.
-/

namespace InferenceConfig

namespace Quoted

/-! ### Writing that shows its end -/

/-- What is written at the start of a text determines what it was written for, and where it
ends. -/
def SelfDelimiting {α : Type} (write : α → List Char) : Prop :=
  ∀ ⦃first second rest rest'⦄, write first ++ rest = write second ++ rest' →
    first = second ∧ rest = rest'

section

variable {α : Type} {write : α → List Char}

/-- Different items are written differently. -/
theorem SelfDelimiting.injective (h : SelfDelimiting write) : Function.Injective write :=
  fun _ _ heq => (h (congrArg (· ++ []) heq)).1

/-- Something fixed may stand before each item. -/
theorem SelfDelimiting.append_left (h : SelfDelimiting write) (opening : List Char) :
    SelfDelimiting fun item => opening ++ write item := by
  intro first second rest rest' happend
  simp only [List.append_assoc, List.append_cancel_left_eq] at happend
  exact h happend

/-- Something fixed may stand behind each item. -/
theorem SelfDelimiting.append_right (h : SelfDelimiting write) (closing : List Char) :
    SelfDelimiting fun item => write item ++ closing := by
  intro first second rest rest' happend
  simp only [List.append_assoc] at happend
  obtain ⟨rfl, hclosing⟩ := h happend
  exact ⟨rfl, List.append_cancel_left hclosing⟩

/-- Items one after another end at the first character that begins none of them. Induction on the
items. -/
theorem flatMap_append_inj {items items' : List α} {stop : Char} {rest rest' : List Char}
    (h : SelfDelimiting write)
    (hitems : ∀ item ∈ items, ∃ c later, write item = c :: later ∧ c ≠ stop)
    (hitems' : ∀ item ∈ items', ∃ c later, write item = c :: later ∧ c ≠ stop)
    (happend : items.flatMap write ++ stop :: rest = items'.flatMap write ++ stop :: rest') :
    items = items' ∧ rest = rest' := by
  induction items generalizing items' with
  | nil =>
      cases items' with
      | nil => exact ⟨rfl, (List.cons.inj happend).2⟩
      | cons item items' =>
          obtain ⟨c, later, hitem, hc⟩ := hitems' item List.mem_cons_self
          rw [List.flatMap_cons, hitem] at happend
          exact absurd (List.cons.inj happend).1.symm hc
  | cons item items ih =>
      cases items' with
      | nil =>
          obtain ⟨c, later, hitem, hc⟩ := hitems item List.mem_cons_self
          rw [List.flatMap_cons, hitem] at happend
          exact absurd (List.cons.inj happend).1 hc
      | cons item' items' =>
          rw [List.flatMap_cons, List.flatMap_cons, List.append_assoc, List.append_assoc]
            at happend
          obtain ⟨rfl, hlater⟩ := h happend
          obtain ⟨rfl, rfl⟩ := ih (List.forall_mem_cons.mp hitems).2
            (List.forall_mem_cons.mp hitems').2 hlater
          exact ⟨rfl, rfl⟩

/-- Items that never begin with a character, and that character behind them. -/
theorem SelfDelimiting.flatMap {stop : Char} (h : SelfDelimiting write)
    (hstop : ∀ item, ∃ c later, write item = c :: later ∧ c ≠ stop) :
    SelfDelimiting fun items : List α => items.flatMap write ++ [stop] := by
  intro first second rest rest' happend
  simp only [List.append_assoc, List.singleton_append] at happend
  exact flatMap_append_inj h (fun item _ => hstop item) (fun item _ => hstop item) happend

/-- A character shows where it ends. -/
theorem selfDelimiting_singleton : SelfDelimiting fun c : Char => [c] := by
  intro first second rest rest' happend
  exact List.cons.inj happend

end

/-! ### Hexadecimal digits -/

/-- The digits of a number are hexadecimal digits. Induction on the number, by its last digit. -/
theorem exists_of_mem_toDigits {n : Nat} {c : Char} (h : c ∈ Nat.toDigits 16 n) :
    ∃ k < 16, c = Nat.digitChar k := by
  induction n using Nat.strongRecOn with
  | ind n ih =>
      rw [Nat.toDigits_eq_if (by decide)] at h
      split at h
      · next hsmall => exact ⟨n, hsmall, List.mem_singleton.mp h⟩
      · next hlarge =>
          rcases List.mem_append.mp h with h | h
          · exact ih (n / 16) (by omega) h
          · exact ⟨n % 16, Nat.mod_lt n (by decide), List.mem_singleton.mp h⟩

/-- Different digits are written differently. -/
theorem digitChar_inj {m n : Nat} (hm : m < 16) (hn : n < 16)
    (h : Nat.digitChar m = Nat.digitChar n) : m = n := by
  have hall : ∀ m < 16, ∀ n < 16, Nat.digitChar m = Nat.digitChar n → m = n := by decide
  exact hall m hm n hn h

/-- Hexadecimal digits determine their number. Induction on the number: the last digit is its
remainder, and the digits before are those of its quotient. -/
theorem toDigits_injective : Function.Injective (Nat.toDigits 16) := by
  intro m n h
  induction m using Nat.strongRecOn generalizing n with
  | ind m ih =>
      have hdigits (k : Nat) : ∃ before, Nat.toDigits 16 k = before ++ [Nat.digitChar (k % 16)] ∧
          (k < 16 ∧ before = [] ∨ 16 ≤ k ∧ before = Nat.toDigits 16 (k / 16)) := by
        rw [Nat.toDigits_eq_if (by decide)]
        split
        · next hsmall => exact ⟨[], by rw [Nat.mod_eq_of_lt hsmall]; rfl, .inl ⟨hsmall, rfl⟩⟩
        · next hlarge => exact ⟨_, rfl, .inr ⟨Nat.le_of_not_lt hlarge, rfl⟩⟩
      obtain ⟨before, hbefore, hm⟩ := hdigits m
      obtain ⟨before', hbefore', hn⟩ := hdigits n
      rw [hbefore, hbefore'] at h
      obtain ⟨rfl, hlast⟩ := List.append_singleton_inj.mp h
      have hmod : m % 16 = n % 16 :=
        digitChar_inj (Nat.mod_lt m (by decide)) (Nat.mod_lt n (by decide)) hlast
      rcases hm with ⟨hm, hnil⟩ | ⟨hm, hrest⟩ <;> rcases hn with ⟨hn, hnil'⟩ | ⟨hn, hrest'⟩
      · omega
      · exact absurd (hrest'.symm.trans hnil) Nat.toDigits_ne_nil
      · exact absurd (hrest.symm.trans hnil') Nat.toDigits_ne_nil
      · have hdiv : m / 16 = n / 16 := ih (m / 16) (by omega) (hrest.symm.trans hrest')
        omega

/-! ### Characters -/

/-- The letters that stand behind a backslash for a character. -/
def letters : List (Char × Char) :=
  [('0', '\x00'), ('t', '\t'), ('r', '\r'), ('n', '\n'), ('\x22', '\x22'), ('\\', '\\')]

/-- The text shows the character: by a backslash and a letter, by its code point, or by itself. -/
inductive Shows (c : Char) : List Char → Prop
  | letter {letter : Char} : (letter, c) ∈ letters → Shows c ['\\', letter]
  | code : Shows c ('\\' :: 'u' :: '\x7b' :: (Nat.toDigits 16 c.toNat ++ ['\x7d']))
  | plain : c ≠ '\\' → c ≠ '\x22' → Shows c [c]

/-- What is written for a character shows it. -/
theorem shows_escape (c : Char) : Shows c (escape c) := by
  unfold escape
  -- Six characters have a letter of their own.
  iterate 6 (split; · next h => exact .letter (by rw [h]; decide))
  split
  · exact .code
  · exact .plain ‹_› ‹_›

/-- No shown character begins with a quote. -/
theorem Shows.exists_cons {c : Char} {text : List Char} (h : Shows c text) :
    ∃ first later, text = first :: later ∧ first ≠ '\x22' := by
  cases h with
  | letter _ => exact ⟨'\\', _, rfl, by decide⟩
  | code => exact ⟨'\\', _, rfl, by decide⟩
  | plain _ hquote => exact ⟨c, [], rfl, hquote⟩

/-- A letter stands for one character. -/
theorem eq_of_mem_letters {letter c d : Char} (hc : (letter, c) ∈ letters)
    (hd : (letter, d) ∈ letters) : c = d := by
  have hall : ∀ pair ∈ letters, ∀ other ∈ letters, pair.1 = other.1 → pair.2 = other.2 := by
    decide
  exact hall _ hc _ hd rfl

/-- The letter of a code point stands for no character by itself. -/
theorem ne_u_of_mem_letters {letter c : Char} (h : (letter, c) ∈ letters) : letter ≠ 'u' := by
  have hall : ∀ pair ∈ letters, pair.1 ≠ 'u' := by decide
  exact hall _ h

/-- Code points in braces are told apart, whatever follows. -/
theorem toDigits_append_inj {m n : Nat} {rest rest' : List Char}
    (h : Nat.toDigits 16 m ++ '\x7d' :: rest = Nat.toDigits 16 n ++ '\x7d' :: rest') :
    m = n ∧ rest = rest' := by
  have hbrace (k : Nat) : ∀ c ∈ Nat.toDigits 16 k, ∃ first later, [c] = first :: later ∧
      first ≠ '\x7d' := by
    intro c hc
    obtain ⟨digit, hdigit, rfl⟩ := exists_of_mem_toDigits hc
    have hall : ∀ digit < 16, Nat.digitChar digit ≠ '\x7d' := by decide
    exact ⟨_, [], rfl, hall digit hdigit⟩
  rw [← List.flatMap_singleton' (Nat.toDigits 16 m), ← List.flatMap_singleton' (Nat.toDigits 16 n)]
    at h
  obtain ⟨hdigits, hrest⟩ := flatMap_append_inj selfDelimiting_singleton (hbrace m) (hbrace n) h
  exact ⟨toDigits_injective hdigits, hrest⟩

/-- A shown character at the start of a text is determined by the text. -/
theorem Shows.append_inj {c d : Char} {text text' rest rest' : List Char} (h : Shows c text)
    (h' : Shows d text') (happend : text ++ rest = text' ++ rest') : c = d ∧ rest = rest' := by
  cases h with
  | letter hc =>
      cases h' with
      | letter hd =>
          obtain ⟨-, hafter⟩ := List.cons.inj happend
          obtain ⟨rfl, hrest⟩ := List.cons.inj hafter
          exact ⟨eq_of_mem_letters hc hd, hrest⟩
      | code =>
          obtain ⟨-, hafter⟩ := List.cons.inj happend
          exact absurd (List.cons.inj hafter).1 (ne_u_of_mem_letters hc)
      | plain hbackslash _ => exact absurd (List.cons.inj happend).1.symm hbackslash
  | code =>
      cases h' with
      | letter hd =>
          obtain ⟨-, hafter⟩ := List.cons.inj happend
          exact absurd (List.cons.inj hafter).1.symm (ne_u_of_mem_letters hd)
      | code =>
          simp only [List.cons_append, List.append_assoc, List.nil_append, List.cons.injEq,
            true_and] at happend
          obtain ⟨hcode, hrest⟩ := toDigits_append_inj happend
          exact ⟨Char.toNat_inj.mp hcode, hrest⟩
      | plain hbackslash _ => exact absurd (List.cons.inj happend).1.symm hbackslash
  | plain hbackslash _ =>
      cases h' with
      | letter _ => exact absurd (List.cons.inj happend).1 hbackslash
      | code => exact absurd (List.cons.inj happend).1 hbackslash
      | plain _ _ => exact List.cons.inj happend

/-- What is written for a character shows where it ends. -/
theorem selfDelimiting_escape : SelfDelimiting escape :=
  fun c d _ _ happend => (shows_escape c).append_inj (shows_escape d) happend

/-! ### Strings and lists -/

/-- A quoted string shows where it ends: the quote that closes it is the first one without a
backslash before it. -/
theorem ofString_append_inj {s s' : String} {rest rest' : List Char}
    (happend : (ofString s).toList ++ rest = (ofString s').toList ++ rest') :
    s = s' ∧ rest = rest' := by
  have hchars : SelfDelimiting fun text : List Char => text.flatMap escape ++ ['\x22'] :=
    selfDelimiting_escape.flatMap fun c => (shows_escape c).exists_cons
  simp only [ofString, ofChars, String.toList_ofList] at happend
  obtain ⟨htext, hrest⟩ := hchars (List.cons.inj happend).2
  exact ⟨String.toList_inj.mp htext, hrest⟩

/-- Quoted strings are self-delimiting. -/
theorem selfDelimiting_ofString : SelfDelimiting fun s => (ofString s).toList :=
  fun _ _ _ _ happend => ofString_append_inj happend

/-- The empty list is a pair of brackets. -/
theorem toList_ofList_nil : (ofList []).toList = ['[', ']'] := rfl

/-- Behind the first of some texts, each text comes with a separator before it. -/
theorem intercalate_cons_eq (separator text : List Char) (texts : List (List Char)) :
    separator.intercalate (text :: texts) =
      text ++ texts.flatMap fun next => separator ++ next := by
  induction texts generalizing text with
  | nil => rw [List.intercalate_singleton, List.flatMap_nil, List.append_nil]
  | cons next texts ih =>
      rw [List.intercalate_cons_cons, ih, List.flatMap_cons]
      simp only [List.append_assoc]

/-- A list that is not empty: its first element, and the others behind commas. -/
theorem toList_ofList_cons (s : String) (strings : List String) :
    (ofList (s :: strings)).toList = '[' :: ((ofString s).toList ++
      ((strings.flatMap fun next => [',', ' '] ++ (ofString next).toList) ++ [']'])) := by
  have hbody := intercalate_cons_eq [',', ' '] (ofString s).toList
    (strings.map fun next => (ofString next).toList)
  rw [List.flatMap_map] at hbody
  rw [ofList, String.toList_append, String.toList_append, String.toList_intercalate,
    List.map_map, List.map_cons]
  simp only [Function.comp_apply]
  exact (congrArg (fun body => '[' :: (body ++ [']'])) hbody).trans (by simp)

/-- A quoted string starts with a quote. -/
theorem exists_toList_ofString (s : String) : ∃ later, (ofString s).toList = '\x22' :: later :=
  ⟨_, String.toList_ofList⟩

/-- Quoted lists are self-delimiting: behind a string follows a comma or the closing bracket, and
neither begins a string. -/
theorem selfDelimiting_ofList : SelfDelimiting fun strings => (ofList strings).toList := by
  have hlater : SelfDelimiting fun strings : List String =>
      (strings.flatMap fun next => [',', ' '] ++ (ofString next).toList) ++ [']'] :=
    (selfDelimiting_ofString.append_left [',', ' ']).flatMap
      fun next => ⟨',', ' ' :: (ofString next).toList, rfl, by decide⟩
  -- No element begins with a closing bracket.
  have hfirst (s : String) (strings : List String) (rest rest' : List Char) :
      (ofList (s :: strings)).toList ++ rest ≠ (ofList []).toList ++ rest' := by
    obtain ⟨later, hs⟩ := exists_toList_ofString s
    rw [toList_ofList_cons, hs, toList_ofList_nil]
    simp
  intro first second rest rest' happend
  beta_reduce at happend
  cases first with
  | nil =>
      cases second with
      | nil => exact ⟨rfl, List.append_cancel_left happend⟩
      | cons s second => exact absurd happend.symm (hfirst s second rest' rest)
  | cons s first =>
      cases second with
      | nil => exact absurd happend (hfirst s first rest rest')
      | cons s' second =>
          rw [toList_ofList_cons, toList_ofList_cons, List.cons_append, List.cons_append,
            List.cons_inj_right, List.append_assoc (ofString s).toList,
            List.append_assoc (ofString s').toList] at happend
          obtain ⟨rfl, hothers⟩ := ofString_append_inj happend
          obtain ⟨rfl, rfl⟩ := hlater hothers
          exact ⟨rfl, rfl⟩

/-- Different lists are written differently. -/
theorem ofList_injective : Function.Injective ofList :=
  fun _ _ heq => selfDelimiting_ofList.injective (congrArg String.toList heq)

/-- A quoted list starts with a bracket. -/
theorem exists_toList_ofList (strings : List String) :
    ∃ later, (ofList strings).toList = '[' :: later := by
  cases strings with
  | nil => exact ⟨_, toList_ofList_nil⟩
  | cons s strings => exact ⟨_, toList_ofList_cons s strings⟩

end Quoted

end InferenceConfig
