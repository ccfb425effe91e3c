import InferenceConfig.Proofs.Json.Reading

/-!
# Reading JSON Does Not Look Ahead

A reader that succeeds has seen the end of what it reads, so it reads the same when more bytes
follow. Strings end at their quote, arrays and objects at their bracket, and a message is one of
these. A number is the one value that has no end of its own: it may go on with the bytes that
follow. It is only skipped inside an object, where another byte comes behind it, and what
follows that byte makes no difference.

## Main definitions

* `Json.Next.append` — the same place, with more bytes behind it.

## Main results

* `Json.readString_append_of_ok`, `Json.skipValue_append_of_ok` — strings, and values that are
  skipped;
* `Json.readElements_append_of_ok`, `Json.readMembers_append_of_ok` — the lists of a message;
* `Json.readMessage_append_of_ok` — a message, whatever follows it;
* `Json.read_append_eq_ok_iff` — what may follow a document.
-/

namespace InferenceConfig

namespace Json

variable {bytes rest : List UInt8} {kind : Kind} {first : Bool}

/-! ### Scanning -/

/-- The byte behind the white space is found again. -/
theorem skipSpace_append_of_cons {byte : UInt8} (h : skipSpace bytes = byte :: rest)
    (later : List UInt8) : skipSpace (bytes ++ later) = byte :: (rest ++ later) := by
  rw [skipSpace] at h
  rw [skipSpace, List.dropWhile_append, h]
  rfl

/-- Digits end at the byte that follows them. -/
theorem skipDigits_append_of_ne_nil (h : skipDigits bytes ≠ []) (later : List UInt8) :
    skipDigits (bytes ++ later) = skipDigits bytes ++ later := by
  rw [skipDigits] at h
  rw [skipDigits, skipDigits, List.dropWhile_append, if_neg (by simpa using h)]

/-- Whether a digit is next is decided by the next byte. -/
theorem startsWithDigit_append_of_ne_nil (h : bytes ≠ []) (later : List UInt8) :
    startsWithDigit (bytes ++ later) = startsWithDigit bytes := by
  obtain ⟨byte, tail, rfl⟩ := List.exists_cons_of_ne_nil h
  rfl

/-- The letters of a literal. Induction on the run. -/
theorem readLiteral_append_of_ok {letters : List UInt8}
    (h : readLiteral letters bytes = .ok rest) (later : List UInt8) :
    readLiteral letters (bytes ++ later) = .ok (rest ++ later) := by
  fun_induction readLiteral letters bytes with
  | case1 bytes =>
      obtain rfl := Except.ok.inj h
      rfl
  | case2 => simp at h
  | case3 letter letters tail ih => rw [List.cons_append, readLiteral, if_pos rfl, ih h]
  | case4 => simp at h

/-- The four digits of an escape. -/
theorem readHex_append_of_ok {n : Nat} (h : readHex bytes = .ok (n, rest))
    (later : List UInt8) : readHex (bytes ++ later) = .ok (n, rest ++ later) := by
  unfold readHex at h
  split at h
  · next a b c d tail =>
      split at h
      · next ha hb hc hd =>
          obtain ⟨rfl, rfl⟩ := Prod.mk.inj (Except.ok.inj h)
          simp only [List.cons_append, readHex, ha, hb, hc, hd]
      · simp at h
  · simp at h

/-- The colon behind a key. -/
theorem readColon_append_of_ok (h : readColon bytes = .ok rest) (later : List UInt8) :
    readColon (bytes ++ later) = .ok (rest ++ later) := by
  rw [readColon] at h
  split at h
  · simp at h
  · next byte tail hspace =>
      split at h
      · next hcolon =>
          obtain rfl := Except.ok.inj h
          rw [readColon, skipSpace_append_of_cons hspace later]
          exact if_pos hcolon
      · simp at h

/-! ### Strings -/

/-- The second escape of a pair of surrogates. -/
theorem readTrailing_append_of_ok {leading : Nat} {content : List UInt8}
    (h : readTrailing leading bytes = .ok (content, rest)) (later : List UInt8) :
    readTrailing leading (bytes ++ later) = .ok (content, rest ++ later) := by
  unfold readTrailing at h
  split at h
  · simp at h
  · split at h
    · simp at h
    · simp at h
  · next byte letter digits =>
      split at h
      · simp at h
      · next hbackslash =>
          split at h
          · simp at h
          · next hletter =>
              split at h
              · simp at h
              · next trailing tail hhex =>
                  split at h
                  · next hsurrogate =>
                      obtain ⟨rfl, rfl⟩ := Prod.mk.inj (Except.ok.inj h)
                      rw [List.cons_append, List.cons_append, readTrailing, if_neg hbackslash,
                        if_neg hletter, readHex_append_of_ok hhex later]
                      exact if_pos hsurrogate
                  · simp at h

/-- An escape by a code point, or by two surrogates. -/
theorem readCodePoint_append_of_ok {content : List UInt8}
    (h : readCodePoint bytes = .ok (content, rest)) (later : List UInt8) :
    readCodePoint (bytes ++ later) = .ok (content, rest ++ later) := by
  rw [readCodePoint] at h
  split at h
  · simp at h
  · next n tail hhex =>
      rw [readCodePoint, readHex_append_of_ok hhex later]
      dsimp only
      split at h
      · simp at h
      · next htrailing =>
          rw [if_neg htrailing]
          split at h
          · next hleading => rw [if_pos hleading, readTrailing_append_of_ok h later]
          · next hleading =>
              obtain ⟨rfl, rfl⟩ := Prod.mk.inj (Except.ok.inj h)
              rw [if_neg hleading]

/-- An escape of either sort. -/
theorem readEscape_append_of_ok {content : List UInt8}
    (h : readEscape bytes = .ok (content, rest)) (later : List UInt8) :
    readEscape (bytes ++ later) = .ok (content, rest ++ later) := by
  unfold readEscape at h
  split at h
  · simp at h
  · next letter tail =>
      rw [List.cons_append, readEscape]
      split at h
      · next hletter => rw [if_pos hletter, readCodePoint_append_of_ok h later]
      · next hletter =>
          rw [if_neg hletter]
          split at h
          · next byte =>
              obtain ⟨rfl, rfl⟩ := Prod.mk.inj (Except.ok.inj h)
              rfl
          · simp at h

/-- The content of a string is read up to its closing quote. Induction on the run. -/
theorem readContent_append_of_ok {content : List UInt8}
    (h : readContent bytes = .ok (content, rest)) (later : List UInt8) :
    readContent (bytes ++ later) = .ok (content, rest ++ later) := by
  fun_induction readContent bytes generalizing content rest with
  | case2 tail =>
      obtain ⟨rfl, rfl⟩ := Prod.mk.inj (Except.ok.inj h)
      exact readContent_quote (tail ++ later)
  | case5 behind escaped tail hescape content tail' hcontent _ ih =>
      obtain ⟨rfl, rfl⟩ := Prod.mk.inj (Except.ok.inj h)
      rw [List.cons_append, readContent_escape (readEscape_append_of_ok hescape later),
        ih hcontent]
      rfl
  | case8 byte tail hquote hbackslash hcontrol content tail' hcontent ih =>
      obtain ⟨rfl, rfl⟩ := Prod.mk.inj (Except.ok.inj h)
      rw [List.cons_append, readContent, if_neg hquote, if_neg hbackslash, if_neg hcontrol,
        ih hcontent]
  | _ => simp at h

/-- A string that is kept. -/
theorem readString_append_of_ok {value : String} (h : readString bytes = .ok (value, rest))
    (later : List UInt8) : readString (bytes ++ later) = .ok (value, rest ++ later) := by
  rw [readString] at h
  split at h
  · simp at h
  · next content tail hcontent =>
      rw [readString, readContent_append_of_ok hcontent later]
      dsimp only
      split at h
      · simp at h
      · next text =>
          obtain ⟨rfl, rfl⟩ := Prod.mk.inj (Except.ok.inj h)
          rfl

/-- An escape in a string that is skipped. -/
theorem skipEscape_append_of_ok (h : skipEscape bytes = .ok rest) (later : List UInt8) :
    skipEscape (bytes ++ later) = .ok (rest ++ later) := by
  unfold skipEscape at h
  split at h
  · simp at h
  · next letter tail =>
      rw [List.cons_append, skipEscape]
      split at h
      · next hletter =>
          rw [if_pos hletter]
          split at h
          · simp at h
          · next n behind hhex =>
              obtain rfl := Except.ok.inj h
              rw [readHex_append_of_ok hhex later]
      · next hletter =>
          rw [if_neg hletter]
          split at h
          · next hshort =>
              obtain rfl := Except.ok.inj h
              rw [if_pos hshort]
          · simp at h

/-- A string that is skipped. Induction on the run. -/
theorem skipString_append_of_ok (h : skipString bytes = .ok rest) (later : List UInt8) :
    skipString (bytes ++ later) = .ok (rest ++ later) := by
  fun_induction skipString bytes with
  | case2 tail =>
      obtain rfl := Except.ok.inj h
      rw [List.cons_append, skipString, if_pos rfl]
  | case4 behind tail hescape _ ih =>
      rw [List.cons_append, skipString_escape (skipEscape_append_of_ok hescape later), ih h]
  | case6 byte tail hquote hbackslash hcontrol ih =>
      rw [List.cons_append, skipString, if_neg hquote, if_neg hbackslash, if_neg hcontrol, ih h]
  | _ => simp at h

/-! ### Values that are skipped

A number is the same with more bytes behind it if some byte was behind it before. -/

/-- The sign of an exponent is seen from the next byte. -/
theorem readSign_append_of_ne_nil (h : (readSign bytes).2 ≠ []) (later : List UInt8) :
    readSign (bytes ++ later) = ((readSign bytes).1, (readSign bytes).2 ++ later) := by
  cases bytes with
  | nil => exact absurd rfl h
  | cons byte tail =>
      rw [List.cons_append, readSign, readSign]
      by_cases hminus : byte = 0x2D
      · rw [if_pos hminus, if_pos hminus]
      · rw [if_neg hminus, if_neg hminus]
        by_cases hplus : byte = 0x2B
        · rw [if_pos hplus, if_pos hplus]
        · rw [if_neg hplus, if_neg hplus, List.cons_append]

/-- An exponent. -/
theorem skipExponent_append_of_ok (h : skipExponent bytes = .ok rest) (hrest : rest ≠ [])
    (later : List UInt8) : skipExponent (bytes ++ later) = .ok (rest ++ later) := by
  rw [skipExponent] at h
  split at h
  · simp at h
  · next down byte tail hsign =>
      split at h
      · next hdigit =>
          obtain rfl := Except.ok.inj h
          have hbehind : (readSign bytes).2 ≠ [] := by
            rw [hsign]
            exact List.cons_ne_nil byte tail
          have hlater := readSign_append_of_ne_nil hbehind later
          rw [skipExponent, hlater, hsign]
          dsimp only [List.cons_append]
          rw [if_pos hdigit, skipDigits_append_of_ne_nil hrest]
      · simp at h

/-- A number behind its digits, with or without an exponent. -/
theorem skipScaled_append_of_ok (h : skipScaled bytes = .ok rest) (hrest : rest ≠ [])
    (later : List UInt8) : skipScaled (bytes ++ later) = .ok (rest ++ later) := by
  cases bytes with
  | nil => exact absurd (Except.ok.inj h).symm hrest
  | cons byte tail =>
      rw [skipScaled] at h
      rw [List.cons_append, skipScaled]
      split at h
      · next hletter => rw [if_pos hletter, skipExponent_append_of_ok h hrest later]
      · next hletter =>
          obtain rfl := Except.ok.inj h
          rw [if_neg hletter, List.cons_append]

/-- A number behind the digits before its point. -/
theorem skipAfterInteger_append_of_ok (h : skipAfterInteger bytes = .ok rest)
    (hrest : rest ≠ []) (later : List UInt8) :
    skipAfterInteger (bytes ++ later) = .ok (rest ++ later) := by
  cases bytes with
  | nil => exact absurd (Except.ok.inj h).symm hrest
  | cons byte tail =>
      rw [skipAfterInteger] at h
      rw [List.cons_append, skipAfterInteger]
      split at h
      · next hpoint =>
          split at h
          · next hdigit =>
              have hdigits : skipDigits tail ≠ [] := by
                intro hnil
                rw [hnil, skipScaled, Except.ok.injEq] at h
                exact hrest h.symm
              have htail : tail ≠ [] := by
                rintro rfl
                exact hdigits rfl
              rw [if_pos hpoint, startsWithDigit_append_of_ne_nil htail, if_pos hdigit,
                skipDigits_append_of_ne_nil hdigits, skipScaled_append_of_ok h hrest]
          · simp at h
      · next hpoint =>
          rw [if_neg hpoint, ← List.cons_append, skipScaled_append_of_ok h hrest]

/-- Behind a byte that follows a number, there was something to skip. -/
theorem ne_nil_of_skipAfterInteger (h : skipAfterInteger bytes = .ok rest) (hrest : rest ≠ []) :
    bytes ≠ [] := by
  rintro rfl
  rw [skipAfterInteger, Except.ok.injEq] at h
  exact hrest h.symm

/-- A number behind its sign. -/
theorem skipUnsigned_append_of_ok (h : skipUnsigned bytes = .ok rest) (hrest : rest ≠ [])
    (later : List UInt8) : skipUnsigned (bytes ++ later) = .ok (rest ++ later) := by
  unfold skipUnsigned at h
  split at h
  · simp at h
  · next byte tail =>
      rw [List.cons_append, skipUnsigned]
      split at h
      · next hzero =>
          split at h
          · simp at h
          · next hdigit =>
              have htail := ne_nil_of_skipAfterInteger h hrest
              rw [if_pos hzero, startsWithDigit_append_of_ne_nil htail, if_neg hdigit,
                skipAfterInteger_append_of_ok h hrest]
      · next hzero =>
          split at h
          · next hdigit =>
              have hdigits := ne_nil_of_skipAfterInteger h hrest
              rw [if_neg hzero, if_pos hdigit, skipDigits_append_of_ne_nil hdigits,
                skipAfterInteger_append_of_ok h hrest]
          · simp at h

/-- A number that is skipped. -/
theorem skipNumber_append_of_ok (h : skipNumber bytes = .ok rest) (hrest : rest ≠ [])
    (later : List UInt8) : skipNumber (bytes ++ later) = .ok (rest ++ later) := by
  unfold skipNumber at h
  split at h
  · simp at h
  · next byte tail =>
      rw [List.cons_append, skipNumber]
      split at h
      · next hminus => rw [if_pos hminus, skipUnsigned_append_of_ok h hrest]
      · next hminus =>
          rw [if_neg hminus, ← List.cons_append, skipUnsigned_append_of_ok h hrest]

/-- A value without brackets, by its first byte. -/
theorem skipScalar_append_of_ok (h : skipScalar bytes = .ok rest) (hrest : rest ≠ [])
    (later : List UInt8) : skipScalar (bytes ++ later) = .ok (rest ++ later) := by
  unfold skipScalar at h
  split at h
  · simp at h
  · next byte tail =>
      rw [List.cons_append, skipScalar]
      by_cases hnull : byte = 0x6E
      · rw [if_pos hnull] at h ⊢
        exact readLiteral_append_of_ok h later
      rw [if_neg hnull] at h ⊢
      by_cases htrue : byte = 0x74
      · rw [if_pos htrue] at h ⊢
        exact readLiteral_append_of_ok h later
      rw [if_neg htrue] at h ⊢
      by_cases hfalse : byte = 0x66
      · rw [if_pos hfalse] at h ⊢
        exact readLiteral_append_of_ok h later
      rw [if_neg hfalse] at h ⊢
      by_cases hquote : byte = 0x22
      · rw [if_pos hquote] at h ⊢
        exact skipString_append_of_ok h later
      rw [if_neg hquote] at h ⊢
      by_cases hnumber : byte = 0x2D ∨ isDigit byte = true
      · rw [if_pos hnumber] at h ⊢
        rw [← List.cons_append, skipNumber_append_of_ok h hrest]
      · rw [if_neg hnumber] at h
        simp at h

/-- The key of a member that is skipped, and its colon. -/
theorem skipKey_append_of_ok (h : skipKey bytes = .ok rest) (later : List UInt8) :
    skipKey (bytes ++ later) = .ok (rest ++ later) := by
  rw [skipKey] at h
  split at h
  · simp at h
  · next byte tail hspace =>
      rw [skipKey, skipSpace_append_of_cons hspace later]
      dsimp only
      split at h
      · next hquote =>
          rw [if_pos hquote]
          split at h
          · simp at h
          · next colon hstring =>
              rw [skipString_append_of_ok hstring later]
              exact readColon_append_of_ok h later
      · simp at h

/-- What comes before the value of an element or a member. -/
theorem skipToValue_append_of_ok {bracket : Bracket} (h : skipToValue bracket bytes = .ok rest)
    (later : List UInt8) : skipToValue bracket (bytes ++ later) = .ok (rest ++ later) := by
  cases bracket with
  | array =>
      obtain rfl := Except.ok.inj h
      rfl
  | object => exact skipKey_append_of_ok h later

/-- What is skipped up to some byte is skipped in the same way when more bytes follow that one.
Induction on the run: if a number ends at the end of the bytes then nothing is left. -/
theorem skipNested_append_of_ok {due : Due} {brackets : List Bracket}
    (h : skipNested due brackets bytes = .ok rest) (hrest : rest ≠ []) (later : List UInt8) :
    skipNested due brackets (bytes ++ later) = .ok (rest ++ later) := by
  fun_induction skipNested due brackets bytes with
  | case3 brackets bytes byte tail hspace hbyte behind hscalar ih =>
      have hbehind : behind ≠ [] := by
        have hlength := length_of_skipNested h
        have hpos := List.length_pos_iff.mpr hrest
        exact List.length_pos_iff.mp (Nat.lt_of_lt_of_le hpos hlength)
      rw [skipNested_scalar (skipSpace_append_of_cons hspace later) hbyte
        (skipScalar_append_of_ok hscalar hbehind later), ih h]
  | case5 brackets bytes byte tail hspace bracket hbyte inner hinner ih =>
      rw [skipNested_empty (skipSpace_append_of_cons hspace later) hbyte
        (skipSpace_append_of_cons hinner later), ih h]
  | case7 brackets bytes byte tail hspace bracket hbyte next inner hinner hnext start hstart ih =>
      have hlater := skipToValue_append_of_ok hstart later
      rw [List.cons_append] at hlater
      rw [skipNested_value (skipSpace_append_of_cons hspace later), hbyte]
      simp only [skipSpace_append_of_cons hinner later, if_neg hnext, hlater]
      exact ih h
  | case8 bytes =>
      obtain rfl := Except.ok.inj h
      rw [skipNested]
  | case11 bytes bracket outer tail start hstart hspace ih =>
      rw [skipNested_separator (skipSpace_append_of_cons hspace later), if_pos rfl,
        skipToValue_append_of_ok hstart later]
      exact ih h
  | case12 bytes bracket outer tail hspace _ ih =>
      rw [skipNested_close (skipSpace_append_of_cons hspace later), ih h]
  | _ => simp at h

/-- A value that is skipped, of any sort. -/
theorem skipValue_append_of_ok (h : skipValue bytes = .ok rest) (hrest : rest ≠ [])
    (later : List UInt8) : skipValue (bytes ++ later) = .ok (rest ++ later) :=
  skipNested_append_of_ok h hrest later

/-- What follows the key of an unknown member. -/
theorem skipMember_append_of_ok (h : skipMember bytes = .ok rest) (hrest : rest ≠ [])
    (later : List UInt8) : skipMember (bytes ++ later) = .ok (rest ++ later) := by
  rw [skipMember] at h
  split at h
  · simp at h
  · next colon hcolon =>
      rw [skipMember, readColon_append_of_ok hcolon later]
      exact skipValue_append_of_ok h hrest later

/-! ### Lists of strings -/

/-- The same place with more bytes behind it. -/
def Next.append (next : Next) (later : List UInt8) : Next :=
  match next with
  | .closed rest => .closed (rest ++ later)
  | .starts bytes => .starts (bytes ++ later)

/-- The place of the next element, or of the end of the array. -/
theorem nextElement_append_of_ok {next : Next} (h : nextElement first bytes = .ok next)
    (later : List UInt8) : nextElement first (bytes ++ later) = .ok (next.append later) := by
  rw [nextElement] at h
  split at h
  · simp at h
  · next byte tail hspace =>
      have hlater := skipSpace_append_of_cons hspace later
      split at h
      · next hclosing =>
          obtain rfl := Except.ok.inj h
          exact nextElement_closed (hclosing ▸ hlater) first
      · next hclosing =>
          split at h
          · next hfirst =>
              obtain rfl := Except.ok.inj h
              rw [hfirst]
              exact nextElement_first hlater hclosing
          · next hfirst =>
              rw [Bool.eq_false_iff.mpr hfirst]
              split at h
              · next hcomma =>
                  split at h
                  · simp at h
                  · next inner behind hinner =>
                      split at h
                      · simp at h
                      · next hinside =>
                          obtain rfl := Except.ok.inj h
                          exact nextElement_comma (hcomma ▸ hlater)
                            (skipSpace_append_of_cons hinner later) hinside
              · simp at h

/-- A string as an element. -/
theorem readStringValue_append_of_ok {value : String}
    (h : readStringValue bytes = .ok (value, rest)) (later : List UInt8) :
    readStringValue (bytes ++ later) = .ok (value, rest ++ later) := by
  rw [readStringValue] at h
  split at h
  · simp at h
  · next byte tail hspace =>
      rw [readStringValue, skipSpace_append_of_cons hspace later]
      dsimp only
      split at h
      · next hquote => rw [if_pos hquote, readString_append_of_ok h later]
      · simp at h

/-- The strings of a list. Induction on the run. -/
theorem readStrings_append_of_ok {values : List String}
    (h : readStrings first bytes = .ok (values, rest)) (later : List UInt8) :
    readStrings first (bytes ++ later) = .ok (values, rest ++ later) := by
  fun_induction readStrings first bytes generalizing values rest with
  | case2 first bytes tail hnext =>
      obtain ⟨rfl, rfl⟩ := Prod.mk.inj (Except.ok.inj h)
      exact readStrings_closed (nextElement_append_of_ok hnext later)
  | case5 first bytes start hnext value behind hvalue values tail hvalues ih =>
      obtain ⟨rfl, rfl⟩ := Prod.mk.inj (Except.ok.inj h)
      rw [readStrings_starts (nextElement_append_of_ok hnext later),
        readStringValue_append_of_ok hvalue later]
      simp only [Except.bind, ih hvalues, Except.map]
  | _ => simp at h

/-- A list of strings. -/
theorem readList_append_of_ok {values : List String} (h : readList bytes = .ok (values, rest))
    (later : List UInt8) : readList (bytes ++ later) = .ok (values, rest ++ later) := by
  rw [readList] at h
  split at h
  · simp at h
  · next byte tail hspace =>
      rw [readList, skipSpace_append_of_cons hspace later]
      dsimp only
      split at h
      · next hbracket => rw [if_pos hbracket, readStrings_append_of_ok h later]
      · simp at h

/-- What follows the key of a field. -/
theorem readMember_append_of_ok {values : List String}
    (h : readMember bytes = .ok (values, rest)) (later : List UInt8) :
    readMember (bytes ++ later) = .ok (values, rest ++ later) := by
  rw [readMember] at h
  split at h
  · simp at h
  · next colon hcolon =>
      rw [readMember, readColon_append_of_ok hcolon later]
      exact readList_append_of_ok h later

/-! ### Messages -/

/-- The end of an array without room for another list. -/
theorem readArrayEnd_append_of_ok (h : readArrayEnd bytes = .ok rest) (later : List UInt8) :
    readArrayEnd (bytes ++ later) = .ok (rest ++ later) := by
  rw [readArrayEnd] at h
  split at h
  · simp at h
  · next byte tail hspace =>
      split at h
      · next hclosing =>
          obtain rfl := Except.ok.inj h
          rw [readArrayEnd, skipSpace_append_of_cons hspace later]
          exact if_pos hclosing
      · -- Behind a comma there is nothing that could be accepted.
        split at h
        · split at h
          · simp at h
          · split at h
            · simp at h
            · simp at h
        · simp at h

/-- The lists of an array. Induction on the run. -/
theorem readElements_append_of_ok {fields : List Field} {lists : Lists}
    (h : readElements fields first bytes = .ok (lists, rest)) (later : List UInt8) :
    readElements fields first (bytes ++ later) = .ok (lists, rest ++ later) := by
  fun_induction readElements fields first bytes generalizing lists rest with
  | case2 first bytes tail hend =>
      obtain ⟨rfl, rfl⟩ := Prod.mk.inj (Except.ok.inj h)
      rw [readElements, readArrayEnd_append_of_ok hend later]
  | case4 field fields first bytes tail hnext =>
      obtain ⟨rfl, rfl⟩ := Prod.mk.inj (Except.ok.inj h)
      exact readElements_closed (nextElement_append_of_ok hnext later) (field :: fields)
  | case7 field fields first bytes start hnext list behind hlist lists tail hlists ih =>
      obtain ⟨rfl, rfl⟩ := Prod.mk.inj (Except.ok.inj h)
      rw [readElements_starts (nextElement_append_of_ok hnext later),
        readList_append_of_ok hlist later]
      simp only [Except.bind, ih hlists, Except.map]
  | _ => simp at h

/-- The place of the next key, or of the end of the object. -/
theorem nextKey_append_of_ok {next : Next} (h : nextKey first bytes = .ok next)
    (later : List UInt8) : nextKey first (bytes ++ later) = .ok (next.append later) := by
  rw [nextKey] at h
  split at h
  · simp at h
  · next byte tail hspace =>
      have hlater := skipSpace_append_of_cons hspace later
      split at h
      · next hclosing =>
          obtain rfl := Except.ok.inj h
          exact nextKey_closed (hclosing ▸ hlater) first
      · split at h
        · next hfirst =>
            rw [hfirst]
            split at h
            · next hquote =>
                obtain rfl := Except.ok.inj h
                exact nextKey_first (hquote ▸ hlater)
            · simp at h
        · next hfirst =>
            rw [Bool.eq_false_iff.mpr hfirst]
            split at h
            · next hcomma =>
                split at h
                · simp at h
                · next inner behind hinner =>
                    split at h
                    · next hquote =>
                        obtain rfl := Except.ok.inj h
                        exact nextKey_comma (hcomma ▸ hlater)
                          (hquote ▸ skipSpace_append_of_cons hinner later)
                    · split at h
                      · simp at h
                      · simp at h
            · simp at h

/-- Behind the last byte, no key and no end of an object is found. -/
theorem readMembers_nil (kind : Kind) (found : Lists) (first : Bool) :
    readMembers kind found first [] = .error (peeked .eofObject []) := by
  have hnone : nextKey first [] = .error (peeked .eofObject []) := rfl
  rw [readMembers]
  split
  · next failure hnext => exact congrArg Except.error (Except.error.inj (hnext.symm.trans hnone))
  · next rest hnext => simp [hnone] at hnext
  · next start hnext => simp [hnone] at hnext

/-- The lists of an object. Induction on the run: behind an unknown member there is at least
the byte that ends the object or goes on with it. -/
theorem readMembers_append_of_ok {found lists : Lists}
    (h : readMembers kind found first bytes = .ok (lists, rest)) (later : List UInt8) :
    readMembers kind found first (bytes ++ later) = .ok (lists, rest ++ later) := by
  fun_induction readMembers kind found first bytes with
  | case2 found first bytes tail hnext =>
      obtain ⟨rfl, rfl⟩ := Prod.mk.inj (Except.ok.inj h)
      exact readMembers_closed (nextKey_append_of_ok hnext later) _
  | case5 found first bytes start hnext key colon hkey hunknown behind hskip ih =>
      have hbehind : behind ≠ [] := by
        rintro rfl
        simp [readMembers_nil] at h
      rw [readMembers_starts (nextKey_append_of_ok hnext later)
        (readString_append_of_ok hkey later), hunknown]
      simp only [skipMember_append_of_ok hskip hbehind later]
      exact ih h
  | case8 found first bytes start hnext key colon hkey field hfield hnew list behind hlist ih =>
      rw [readMembers_starts (nextKey_append_of_ok hnext later)
        (readString_append_of_ok hkey later), hfield]
      simp only [if_neg hnew, readMember_append_of_ok hlist later]
      exact ih h
  | _ => simp at h

/-- Lists that are read in the same way make the same message. -/
theorem map_toMessage_append_of_ok {reading longer : Except Failure (Lists × List UInt8)}
    {message : Message kind} {later : List UInt8}
    (hlists : ∀ lists behind, reading = .ok (lists, behind) →
      longer = .ok (lists, behind ++ later))
    (h : (reading.map fun (lists, rest) => (Lists.toMessage kind lists, rest)) =
      .ok (message, rest)) :
    (longer.map fun (lists, rest) => (Lists.toMessage kind lists, rest)) =
      .ok (message, rest ++ later) := by
  cases hreading : reading with
  | error failure => simp [hreading, Except.map] at h
  | ok result =>
      rw [hreading, Except.map, Except.ok.injEq, Prod.mk.injEq] at h
      obtain ⟨rfl, rfl⟩ := h
      rw [hlists _ _ hreading]
      rfl

/-- A message that is read from the start of the bytes is read in the same way when more bytes
follow. -/
theorem readMessage_append_of_ok {message : Message kind}
    (h : readMessage kind bytes = .ok (message, rest)) (later : List UInt8) :
    readMessage kind (bytes ++ later) = .ok (message, rest ++ later) := by
  cases hspace : skipSpace bytes with
  | nil => simp [readMessage, hspace] at h
  | cons byte tail =>
      have hlater := skipSpace_append_of_cons hspace later
      by_cases harray : byte = 0x5B
      · subst harray
        rw [readMessage_array hspace] at h
        rw [readMessage_array hlater]
        exact map_toMessage_append_of_ok
          (fun _ _ hlists => readElements_append_of_ok hlists later) h
      by_cases hobject : byte = 0x7B
      · subst hobject
        rw [readMessage_object hspace] at h
        rw [readMessage_object hlater]
        exact map_toMessage_append_of_ok
          (fun _ _ hlists => readMembers_append_of_ok hlists later) h
      · simp [readMessage, hspace, harray, hobject] at h

/-! ### Documents -/

/-- A document is a message and white space behind it. -/
theorem read_eq_ok_iff_readMessage {message : Message kind} :
    read kind bytes = .ok message ↔
      ∃ rest, readMessage kind bytes = .ok (message, rest) ∧ IsBlank rest := by
  have hblank (rest : List UInt8) : IsBlank rest ↔ skipSpace rest = [] :=
    List.dropWhile_eq_nil_iff.symm
  simp only [read, readDocument, hblank]
  cases readMessage kind bytes with
  | error failure => simp
  | ok result =>
      obtain ⟨found, rest⟩ := result
      cases hspace : skipSpace rest with
      | nil => simp [hspace]
      | cons byte tail => simp [hspace]

/-- Behind a document nothing but white space may follow, and it makes no difference. -/
theorem read_append_eq_ok_iff {message found : Message kind} (h : read kind bytes = .ok message)
    (later : List UInt8) :
    read kind (bytes ++ later) = .ok found ↔ message = found ∧ IsBlank later := by
  obtain ⟨rest, hmessage, hrest⟩ := read_eq_ok_iff_readMessage.mp h
  rw [read_eq_ok_iff_readMessage, readMessage_append_of_ok hmessage later]
  simp only [Except.ok.injEq, Prod.mk.injEq]
  constructor
  · rintro ⟨_, ⟨rfl, rfl⟩, hblank⟩
    exact ⟨rfl, fun byte hbyte => hblank byte (List.mem_append_right rest hbyte)⟩
  · rintro ⟨rfl, hlater⟩
    exact ⟨_, ⟨rfl, rfl⟩, hrest.append hlater⟩

end Json

end InferenceConfig
