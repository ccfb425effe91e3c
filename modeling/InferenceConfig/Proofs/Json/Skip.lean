import InferenceConfig.Proofs.Json.StringLiteral
import Mathlib.Data.List.DropRight

/-!
# Skipping Values

Every spelling of a value is skipped, whatever the value is and however deep it is nested. The
skipper is a stack machine: it keeps the brackets that are still open. So the statement about a
value is one about the machine's state: from a value that is due, the machine comes to what
follows the value, with the same brackets open. The elements of an array and the members of an
object lead the machine from the first of them to the end of the bracket, and the three
statements follow together, by recursion on the derivation of the spelling.

## Main results

* `Json.skipNumber_of_spellsNumber` — numbers of any size;
* `Json.skipNested_of_spells` — what a value does to the machine;
* `Json.skipValue_of_spells` — every spelling of a value is skipped.
-/

namespace InferenceConfig

namespace Json

variable {byte : UInt8} {bytes digits rest start : List UInt8}

/-! ### Numbers -/

/-- Digits are skipped up to the first byte that is none. -/
theorem skipDigits_append (hdigits : AreDigits digits)
    (hrest : startsWithDigit rest = false) : skipDigits (digits ++ rest) = rest := by
  rw [skipDigits, List.dropWhile_append_of_pos hdigits]
  cases rest with
  | nil => rfl
  | cons byte rest => exact List.dropWhile_cons_of_neg (by simpa [startsWithDigit] using hrest)

/-- What may follow a value neither continues its digits nor starts a fraction or an
exponent. -/
theorem MayFollow.ends_number (h : MayFollow (byte :: rest)) :
    isDigit byte = false ∧ byte ≠ 0x2E ∧ byte ≠ 0x65 ∧ byte ≠ 0x45 := by
  rcases h with hspace | rfl | rfl | rfl
  · rcases isSpace_iff.mp hspace with rfl | rfl | rfl | rfl <;> decide
  · decide
  · decide
  · decide

/-- A sign of an exponent is passed over, and so is its absence before a digit. -/
theorem snd_readSign_append {sign : List UInt8}
    (hsign : sign = [] ∨ sign = [0x2B] ∨ sign = [0x2D]) (hbyte : isDigit byte = true)
    (rest : List UInt8) : (readSign (sign ++ byte :: rest)).2 = byte :: rest := by
  rcases hsign with rfl | rfl | rfl
  · have hminus : byte ≠ 0x2D := by rintro rfl; exact absurd hbyte (by decide)
    have hplus : byte ≠ 0x2B := by rintro rfl; exact absurd hbyte (by decide)
    rw [List.nil_append, readSign, if_neg hminus, if_neg hplus]
  · rfl
  · rfl

/-- An exponent has a sign or none, and at least one digit. -/
theorem skipExponent_append (sign : List UInt8)
    (hsign : sign = [] ∨ sign = [0x2B] ∨ sign = [0x2D]) (hne : digits ≠ [])
    (hdigits : AreDigits digits) (hrest : MayFollow rest) :
    skipExponent (sign ++ (digits ++ rest)) = .ok rest := by
  obtain ⟨byte, digits, rfl⟩ := List.exists_cons_of_ne_nil hne
  have hbyte : isDigit byte = true := hdigits byte List.mem_cons_self
  have hafter : startsWithDigit rest = false := by
    cases rest with
    | nil => rfl
    | cons next rest => exact hrest.ends_number.1
  rw [List.cons_append]
  have hsnd := snd_readSign_append hsign hbyte (digits ++ rest)
  rw [skipExponent]
  split
  · next heq => simp [heq] at hsnd
  · next heq =>
      rw [heq, List.cons.injEq] at hsnd
      obtain ⟨rfl, rfl⟩ := hsnd
      rw [if_pos hbyte, skipDigits_append (List.forall_mem_cons.mp hdigits).2 hafter]

/-- An exponent, if there is one, is passed over. -/
theorem skipScaled_append {exponent : Int} {power : List UInt8}
    (hpower : SpellsExponent exponent power) (hrest : MayFollow rest) :
    skipScaled (power ++ rest) = .ok rest := by
  cases hpower with
  | none =>
      cases rest with
      | nil => rfl
      | cons byte rest =>
          obtain ⟨-, -, hlower, hupper⟩ := hrest.ends_number
          rw [List.nil_append, skipScaled, if_neg (by simp [hlower, hupper])]
  | up hletter hsign hne hdigits =>
      rw [List.cons_append, skipScaled, if_pos hletter, List.append_assoc]
      exact skipExponent_append _ (hsign.imp_right .inl) hne hdigits hrest
  | down hletter hne hdigits =>
      rw [List.cons_append, skipScaled, if_pos hletter]
      exact skipExponent_append [0x2D] (.inr (.inr rfl)) hne hdigits hrest

/-- Behind its digits, a number goes on with an exponent, or not at all. -/
theorem SpellsExponent.ends_digits {exponent : Int} {power : List UInt8}
    (hpower : SpellsExponent exponent power) (hrest : MayFollow rest)
    (h : power ++ rest = byte :: start) : isDigit byte = false ∧ byte ≠ 0x2E := by
  cases hpower with
  | none =>
      rw [List.nil_append] at h
      subst h
      exact ⟨hrest.ends_number.1, hrest.ends_number.2.1⟩
  | up hletter | down hletter =>
      rw [List.cons_append, List.cons.injEq] at h
      obtain ⟨rfl, -⟩ := h
      rcases hletter with rfl | rfl <;> decide

/-- The digits before an exponent end where it starts, and if there is none, where the number
ends. -/
theorem SpellsExponent.startsWithDigit_eq_false {exponent : Int} {power : List UInt8}
    (hpower : SpellsExponent exponent power) (hrest : MayFollow rest) :
    startsWithDigit (power ++ rest) = false := by
  cases h : power ++ rest with
  | nil => rfl
  | cons byte start => exact (hpower.ends_digits hrest h).1

/-- A fraction and an exponent, if there are any, are passed over. -/
theorem skipAfterInteger_append {exponent : Int} {decimals fraction power : List UInt8}
    (hfraction : SpellsFraction decimals fraction) (hpower : SpellsExponent exponent power)
    (hrest : MayFollow rest) :
    skipAfterInteger (fraction ++ (power ++ rest)) = .ok rest := by
  have hscaled := skipScaled_append hpower hrest
  cases hfraction with
  | none =>
      rw [List.nil_append]
      cases h : power ++ rest with
      | nil => rw [← hscaled, h]; rfl
      | cons byte start =>
          rw [skipAfterInteger, if_neg (hpower.ends_digits hrest h).2, ← h, hscaled]
  | some hne hdigits =>
      obtain ⟨first, digits, rfl⟩ := List.exists_cons_of_ne_nil hne
      have hfirst : startsWithDigit (first :: digits ++ (power ++ rest)) = true :=
        hdigits first List.mem_cons_self
      rw [List.cons_append, skipAfterInteger, if_pos rfl, if_pos hfirst,
        skipDigits_append hdigits (hpower.startsWithDigit_eq_false hrest), hscaled]

/-- Nothing between the digits and what follows the number is a digit. -/
theorem startsWithDigit_append {exponent : Int} {decimals fraction power : List UInt8}
    (hfraction : SpellsFraction decimals fraction) (hpower : SpellsExponent exponent power)
    (hrest : MayFollow rest) : startsWithDigit (fraction ++ (power ++ rest)) = false := by
  cases hfraction with
  | none => exact hpower.startsWithDigit_eq_false hrest
  | some => rfl

/-- Behind its sign, a number is skipped as far as it is spelled, if what follows may follow a
number. -/
theorem skipUnsigned_of_spellsUnsigned {value : ℚ} (h : SpellsUnsigned value bytes)
    (hrest : MayFollow rest) : skipUnsigned (bytes ++ rest) = .ok rest := by
  obtain ⟨hwhole, hfraction, hpower⟩ := h
  have hafter := skipAfterInteger_append hfraction hpower hrest
  have hnodigit := startsWithDigit_append hfraction hpower hrest
  rw [List.append_assoc, List.append_assoc]
  cases hwhole with
  | zero =>
      rw [List.singleton_append, skipUnsigned, if_pos rfl, hnodigit,
        if_neg Bool.false_ne_true, hafter]
  | positive hfirst hne hdigits =>
      rw [List.cons_append, skipUnsigned, if_neg hne, if_pos hfirst,
        skipDigits_append hdigits hnodigit, hafter]

/-- Every number is skipped, whatever its size. -/
theorem skipNumber_of_spellsNumber {value : ℚ} (h : SpellsNumber value bytes)
    (hrest : MayFollow rest) : skipNumber (bytes ++ rest) = .ok rest := by
  cases h with
  | positive h =>
      have hunsigned := skipUnsigned_of_spellsUnsigned h hrest
      obtain ⟨hwhole, -, -⟩ := h
      cases hwhole with
      | zero => exact hunsigned
      | @positive first _ hfirst _ _ =>
          have hminus : first ≠ 0x2D := by
            rintro rfl
            exact absurd hfirst (by decide)
          rwa [List.cons_append, List.cons_append, skipNumber, if_neg hminus]
  | negative h => exact skipUnsigned_of_spellsUnsigned h hrest

/-! ### Steps of the machine -/

variable {bracket : Bracket} {brackets outer : List Bracket}

/-- What the machine does when a value is due. -/
theorem skipNested_value (hstart : skipSpace start = byte :: bytes) :
    skipNested .value brackets start =
      match Bracket.ofOpening? byte with
      | none => (skipScalar (byte :: bytes)).bind (skipNested .separator brackets)
      | some bracket =>
        match skipSpace bytes with
        | [] => .error (peeked bracket.eof [])
        | next :: inner =>
          if next = bracket.closing then skipNested .separator brackets inner
          else
            (skipToValue bracket (next :: inner)).bind
              (skipNested .value (bracket :: brackets)) := by
  rw [skipNested]
  split
  · next heq => simp [heq] at hstart
  · next first tail heq =>
      rw [heq, List.cons.injEq] at hstart
      obtain ⟨rfl, rfl⟩ := hstart
      cases Bracket.ofOpening? first with
      | none =>
          dsimp only
          split <;> next hscalar => rw [hscalar]; rfl
      | some bracket =>
          dsimp only
          split
          · next hinner => rw [hinner]
          · next hinner =>
              rw [hinner]
              dsimp only
              split
              · rfl
              · split <;> next hvalue => rw [hvalue]; rfl

/-- What the machine does behind a value inside a bracket. -/
theorem skipNested_separator (hstart : skipSpace start = byte :: bytes) :
    skipNested .separator (bracket :: outer) start =
      if byte = 0x2C then
        (skipToValue bracket bytes).bind (skipNested .value (bracket :: outer))
      else if byte = bracket.closing then skipNested .separator outer bytes
      else .error (peeked bracket.expectedEnd (byte :: bytes)) := by
  rw [skipNested]
  split
  · next heq => simp [heq] at hstart
  · next heq =>
      rw [heq, List.cons.injEq] at hstart
      obtain ⟨rfl, rfl⟩ := hstart
      split
      · split <;> next hvalue => rw [hvalue]; rfl
      · rfl

/-- A value without brackets. -/
theorem skipNested_scalar (hstart : skipSpace start = byte :: bytes)
    (hbyte : Bracket.ofOpening? byte = none) (h : skipScalar (byte :: bytes) = .ok rest) :
    skipNested .value brackets start = skipNested .separator brackets rest := by
  rw [skipNested_value hstart, hbyte]
  dsimp only
  rw [h, Except.bind]

/-- Brackets with nothing but white space between them. -/
theorem skipNested_empty (hstart : skipSpace start = byte :: bytes)
    (hbyte : Bracket.ofOpening? byte = some bracket)
    (hbytes : skipSpace bytes = bracket.closing :: rest) :
    skipNested .value outer start = skipNested .separator outer rest := by
  rw [skipNested_value hstart, hbyte, hbytes]
  exact if_pos rfl

/-- From the start of an element or a member, the machine comes to `rest`, which follows the
end of the bracket. -/
def PassesTo (bracket : Bracket) (outer : List Bracket) (start rest : List UInt8) : Prop :=
  (skipToValue bracket start).bind (skipNested .value (bracket :: outer)) =
    skipNested .separator outer rest

/-- Brackets with something between them. -/
theorem skipNested_open {next : UInt8} {inner : List UInt8}
    (hstart : skipSpace start = byte :: bytes)
    (hbyte : Bracket.ofOpening? byte = some bracket) (hbytes : skipSpace bytes = next :: inner)
    (hnext : next ≠ bracket.closing) (h : PassesTo bracket outer (next :: inner) rest) :
    skipNested .value outer start = skipNested .separator outer rest := by
  rw [skipNested_value hstart, hbyte, hbytes]
  exact (if_neg hnext).trans h

/-- A comma, and what comes after it. -/
theorem skipNested_comma (hstart : skipSpace start = 0x2C :: bytes)
    (h : PassesTo bracket outer bytes rest) :
    skipNested .separator (bracket :: outer) start = skipNested .separator outer rest :=
  (skipNested_separator hstart).trans h

/-- The end of the innermost bracket. -/
theorem skipNested_close (hstart : skipSpace start = bracket.closing :: rest) :
    skipNested .separator (bracket :: outer) start = skipNested .separator outer rest := by
  have hcomma : bracket.closing ≠ 0x2C := by cases bracket <;> decide
  rw [skipNested_separator hstart, if_neg hcomma, if_pos rfl]

/-! ### Values -/

variable {value : Value}

/-- White space before a value is skipped, and nothing of the value. -/
theorem Spells.skipSpace_append {space : List UInt8} (h : Spells value bytes)
    (hspace : IsBlank space) : skipSpace (space ++ (bytes ++ rest)) = bytes ++ rest := by
  obtain ⟨byte, tail, rfl, hbyte⟩ := h.exists_startsWith
  exact Json.skipSpace_append hspace hbyte.isSpace_eq_false

/-- White space before a string is skipped, and nothing of the string. -/
theorem SpellsString.skipSpace_append {value : String} {space : List UInt8}
    (h : SpellsString value bytes) (hspace : IsBlank space) :
    skipSpace (space ++ (bytes ++ rest)) = bytes ++ rest :=
  (Spells.string h).skipSpace_append hspace

/-- Behind white space there is no more of it. -/
theorem skipSpace_skipSpace (bytes : List UInt8) :
    skipSpace (skipSpace bytes) = skipSpace bytes :=
  List.dropWhile_idempotent _ _

/-- The letters of a literal are read, whatever follows. -/
theorem readLiteral_append (letters rest : List UInt8) :
    readLiteral letters (letters ++ rest) = .ok rest := by
  induction letters with
  | nil => rfl
  | cons letter letters ih => rw [List.cons_append, readLiteral, if_pos rfl, ih]

/-- A colon is read behind any white space. -/
theorem readColon_append {space : List UInt8} (hspace : IsBlank space) (rest : List UInt8) :
    readColon (space ++ 0x3A :: rest) = .ok rest := by
  rw [readColon, Json.skipSpace_append hspace (by decide)]
  rfl

/-- A number starts like no other value. -/
theorem skipScalar_of_spellsNumber {value : ℚ} (h : SpellsNumber value bytes)
    (hrest : MayFollow rest) : skipScalar (bytes ++ rest) = .ok rest := by
  have hskip := skipNumber_of_spellsNumber h hrest
  obtain ⟨byte, tail, rfl, hbyte⟩ := h.exists_startsWith
  have hother : byte ≠ 0x6E ∧ byte ≠ 0x74 ∧ byte ≠ 0x66 ∧ byte ≠ 0x22 := by
    refine ⟨?_, ?_, ?_, ?_⟩ <;> rintro rfl <;> exact absurd hbyte (by decide)
  obtain ⟨hnull, htrue, hfalse, hquote⟩ := hother
  rw [List.cons_append, skipScalar, if_neg hnull, if_neg htrue, if_neg hfalse, if_neg hquote,
    if_pos hbyte, ← List.cons_append, hskip]

/-- A string is skipped, whatever follows. -/
theorem skipScalar_of_spellsString {value : String} (h : SpellsString value bytes)
    (rest : List UInt8) : skipScalar (bytes ++ rest) = .ok rest := by
  obtain ⟨hchars⟩ := h
  rw [List.cons_append, List.append_assoc, List.singleton_append]
  exact skipString_of_spellsChars hchars rest

/-- A key and its colon are passed over. -/
theorem skipKey_of_spellsString {key : String} {name gap : List UInt8}
    (hname : SpellsString key name) (hgap : IsBlank gap)
    (hstart : skipSpace start = name ++ (gap ++ 0x3A :: rest)) :
    skipKey start = .ok rest := by
  obtain ⟨hchars⟩ := hname
  rw [List.cons_append, List.append_assoc, List.singleton_append] at hstart
  rw [skipKey, hstart]
  simp only [if_true, skipString_of_spellsChars hchars, readColon_append hgap]

/-- The first of some elements does not start with the end of the array. -/
theorem SpellsElements.exists_skipSpace {elements : List Value}
    (h : SpellsElements elements bytes) (rest : List UInt8) :
    ∃ next inner, skipSpace (bytes ++ rest) = next :: inner ∧ next ≠ 0x5D := by
  cases h with
  | last hbefore hvalue _ | cons hbefore hvalue _ _ =>
      obtain ⟨next, tail, rfl, hnext⟩ := hvalue.exists_startsWith
      rw [List.append_assoc, List.append_assoc, hvalue.skipSpace_append hbefore]
      exact ⟨next, _, rfl, hnext.ne_closing .array⟩

/-- The first of some members starts with a quote. -/
theorem SpellsMembers.exists_skipSpace {members : List (String × Value)}
    (h : SpellsMembers members bytes) (rest : List UInt8) :
    ∃ inner, skipSpace (bytes ++ rest) = 0x22 :: inner := by
  cases h with
  | last hbefore hname _ _ _ _ | cons hbefore hname _ _ _ _ _ =>
      rw [List.append_assoc, List.append_assoc, hname.skipSpace_append hbefore]
      obtain ⟨-⟩ := hname
      exact ⟨_, rfl⟩

mutual

/-- From a value that is due, the machine comes to what follows the value, with the same
brackets open. -/
theorem skipNested_of_spells {value : Value} {bytes : List UInt8} (h : Spells value bytes)
    {start rest : List UInt8} (brackets : List Bracket)
    (hstart : skipSpace start = bytes ++ rest) (hrest : MayFollow rest) :
    skipNested .value brackets start = skipNested .separator brackets rest := by
  cases h with
  | null => exact skipNested_scalar hstart rfl (readLiteral_append nullLetters rest)
  | truth => exact skipNested_scalar hstart rfl (readLiteral_append trueLetters rest)
  | falsity => exact skipNested_scalar hstart rfl (readLiteral_append falseLetters rest)
  | number hnumber =>
      have hscalar := skipScalar_of_spellsNumber hnumber hrest
      obtain ⟨byte, tail, rfl, hbyte⟩ := hnumber.exists_startsWith
      have hbracket : Bracket.ofOpening? byte = none := by
        have harray : byte ≠ 0x5B := by rintro rfl; exact absurd hbyte (by decide)
        have hobject : byte ≠ 0x7B := by rintro rfl; exact absurd hbyte (by decide)
        rw [Bracket.ofOpening?, if_neg harray, if_neg hobject]
      exact skipNested_scalar hstart hbracket hscalar
  | string hstring =>
      have hscalar := skipScalar_of_spellsString hstring rest
      obtain ⟨hchars⟩ := hstring
      exact skipNested_scalar hstart rfl hscalar
  | emptyArray hspace | emptyObject hspace =>
      rw [List.cons_append, List.append_assoc] at hstart
      exact skipNested_empty hstart rfl (Json.skipSpace_append hspace (by decide))
  | array helements =>
      rw [List.cons_append, List.append_assoc, List.singleton_append] at hstart
      -- An element starts here, so the machine does not take the array for an empty one.
      obtain ⟨next, inner, hinner, hnext⟩ := helements.exists_skipSpace (0x5D :: rest)
      have hpasses : PassesTo .array brackets (next :: inner) rest :=
        passesTo_of_spellsElements helements brackets (by rw [← hinner, skipSpace_skipSpace])
      exact skipNested_open hstart rfl hinner hnext hpasses
  | object hmembers =>
      rw [List.cons_append, List.append_assoc, List.singleton_append] at hstart
      obtain ⟨inner, hinner⟩ := hmembers.exists_skipSpace (0x7D :: rest)
      have hpasses : PassesTo .object brackets (0x22 :: inner) rest :=
        passesTo_of_spellsMembers hmembers brackets (by rw [← hinner, skipSpace_skipSpace])
      exact skipNested_open hstart rfl hinner (by decide) hpasses

/-- From the first of some elements, the machine comes to the end of the array. -/
theorem passesTo_of_spellsElements {elements : List Value} {bytes : List UInt8}
    (h : SpellsElements elements bytes) {start rest : List UInt8} (outer : List Bracket)
    (hstart : skipSpace start = skipSpace (bytes ++ 0x5D :: rest)) :
    PassesTo .array outer start rest := by
  rw [PassesTo, skipToValue, Except.bind]
  cases h with
  | last hbefore hvalue hafter =>
      rw [List.append_assoc, List.append_assoc, hvalue.skipSpace_append hbefore] at hstart
      refine (skipNested_of_spells hvalue _ hstart
        (mayFollow_closing hafter .array rest)).trans ?_
      exact skipNested_close (Json.skipSpace_append hafter (by decide))
  | cons hbefore hvalue hafter helements =>
      rw [List.append_assoc, List.append_assoc, hvalue.skipSpace_append hbefore,
        List.append_assoc, List.cons_append] at hstart
      refine (skipNested_of_spells hvalue _ hstart (mayFollow_comma hafter _)).trans ?_
      exact skipNested_comma (Json.skipSpace_append hafter (by decide))
        (passesTo_of_spellsElements helements outer rfl)

/-- From the first of some members, the machine comes to the end of the object. -/
theorem passesTo_of_spellsMembers {members : List (String × Value)} {bytes : List UInt8}
    (h : SpellsMembers members bytes) {start rest : List UInt8} (outer : List Bracket)
    (hstart : skipSpace start = skipSpace (bytes ++ 0x7D :: rest)) :
    PassesTo .object outer start rest := by
  cases h with
  | last hbefore hname hgap hbetween hvalue hafter =>
      rw [List.append_assoc, List.append_assoc, hname.skipSpace_append hbefore,
        List.append_assoc, List.cons_append, List.append_assoc, List.append_assoc] at hstart
      rw [PassesTo, skipToValue, skipKey_of_spellsString hname hgap hstart, Except.bind]
      refine (skipNested_of_spells hvalue _ (hvalue.skipSpace_append hbetween)
        (mayFollow_closing hafter .object rest)).trans ?_
      exact skipNested_close (Json.skipSpace_append hafter (by decide))
  | cons hbefore hname hgap hbetween hvalue hafter hmembers =>
      rw [List.append_assoc, List.append_assoc, hname.skipSpace_append hbefore,
        List.append_assoc, List.cons_append, List.append_assoc, List.append_assoc,
        List.append_assoc, List.cons_append] at hstart
      rw [PassesTo, skipToValue, skipKey_of_spellsString hname hgap hstart, Except.bind]
      refine (skipNested_of_spells hvalue _ (hvalue.skipSpace_append hbetween)
        (mayFollow_comma hafter _)).trans ?_
      exact skipNested_comma (Json.skipSpace_append hafter (by decide))
        (passesTo_of_spellsMembers hmembers outer rfl)

end

/-- Every spelling of a value is skipped, with the white space before it. -/
theorem skipValue_of_spells (h : Spells value bytes) (hrest : MayFollow rest)
    (hstart : skipSpace start = bytes ++ rest) : skipValue start = .ok rest := by
  rw [skipValue, skipNested_of_spells h [] hstart hrest, skipNested]

end Json

end InferenceConfig
