import InferenceConfig.Proofs.Json.Value
import InferenceConfig.Proofs.Unicode.Utf8

/-!
# Reading and Skipping Strings

Whatever the spelling of a string is, a string that is kept is read as the string that is
spelt, and a string that is skipped is passed over up to its closing quote. Both go character
by character: a spelling of a character gives its UTF-8 bytes, and a surrogate that stands
alone is the spelling of no character.

## Main results

* `Json.readContent_char`, `Json.skipString_char` — one character;
* `Json.readString_of_spellsChars`, `Json.skipString_of_spellsChars` — a string, whatever
  follows it.
-/

namespace InferenceConfig

namespace Json

variable {c : Char} {text : List Char} {bytes rest : List UInt8}

/-! ### Escapes -/

/-- The reader knows every hexadecimal digit. -/
theorem hexValue?_of_isHexDigit {byte : UInt8} {n : Nat} (h : IsHexDigit byte n) :
    hexValue? byte = some n := by
  simp only [hexValue?]
  rcases h with ⟨hn, hbyte⟩ | ⟨hlow, hhigh, hbyte | hbyte⟩
  · rw [if_pos (by omega), hbyte, Nat.add_sub_cancel_left]
  · rw [if_neg (by omega), if_pos (by omega), hbyte, Option.some.injEq]
    omega
  · rw [if_neg (by omega), if_neg (by omega), if_pos (by omega), hbyte, Option.some.injEq]
    omega

/-- Four digits are read as the number that they spell, whatever follows. -/
theorem readHex_append {n : Nat} (h : SpellsHex n bytes) (rest : List UInt8) :
    readHex (bytes ++ rest) = .ok (n, rest) := by
  obtain ⟨ha, hb, hc, hd⟩ := h
  simp only [List.cons_append, List.nil_append, readHex, hexValue?_of_isHexDigit ha,
    hexValue?_of_isHexDigit hb, hexValue?_of_isHexDigit hc, hexValue?_of_isHexDigit hd,
    Except.ok.injEq, Prod.mk.injEq, and_true]
  omega

/-- A short escape stands for the one byte of its character. -/
theorem shortEscape?_of_mem {letter : UInt8} (h : (letter, c) ∈ shortEscapes) :
    letter ≠ 0x75 ∧ ∃ byte, shortEscape? letter = some byte ∧ Utf8.encodeChar c = [byte] := by
  simp only [shortEscapes, List.mem_cons, Prod.mk.injEq, List.not_mem_nil, or_false] at h
  rcases h with ⟨rfl, rfl⟩ | ⟨rfl, rfl⟩ | ⟨rfl, rfl⟩ | ⟨rfl, rfl⟩ | ⟨rfl, rfl⟩ | ⟨rfl, rfl⟩ |
    ⟨rfl, rfl⟩ | ⟨rfl, rfl⟩ <;> exact ⟨by decide, _, rfl, rfl⟩

/-- No character is the second half of a pair. -/
theorem isTrailingSurrogate_toNat (c : Char) : isTrailingSurrogate c.toNat = false := by
  have hvalid := Utf8.valid_toNat c
  simp only [isTrailingSurrogate, Bool.and_eq_false_iff, decide_eq_false_iff_not]
  omega

/-- No character is the first half of a pair. -/
theorem isLeadingSurrogate_toNat (c : Char) : isLeadingSurrogate c.toNat = false := by
  have hvalid := Utf8.valid_toNat c
  simp only [isLeadingSurrogate, Bool.and_eq_false_iff, decide_eq_false_iff_not]
  omega

/-- The code point of a character is read as that character. -/
theorem readEscape_codePoint (h : SpellsHex c.toNat bytes) (rest : List UInt8) :
    readEscape (0x75 :: (bytes ++ rest)) = .ok (Utf8.encodeChar c, rest) := by
  simp only [readEscape, if_true, readCodePoint, readHex_append h,
    isTrailingSurrogate_toNat, isLeadingSurrogate_toNat, Char.ofNat_toNat]
  simp

/-- The surrogates of a character are read as that character. -/
theorem readEscape_surrogates {leading trailing : List UInt8} (hc : 0x10000 ≤ c.toNat)
    (hleading : SpellsHex (0xD800 + (c.toNat - 0x10000) / 0x400) leading)
    (htrailing : SpellsHex (0xDC00 + (c.toNat - 0x10000) % 0x400) trailing)
    (rest : List UInt8) :
    readEscape (0x75 :: (leading ++ 0x5C :: 0x75 :: (trailing ++ rest))) =
      .ok (Utf8.encodeChar c, rest) := by
  have hvalid := Utf8.valid_toNat c
  have hfirst : isTrailingSurrogate (0xD800 + (c.toNat - 0x10000) / 0x400) = false := by
    simp only [isTrailingSurrogate, Bool.and_eq_false_iff, decide_eq_false_iff_not]
    omega
  have hlead : isLeadingSurrogate (0xD800 + (c.toNat - 0x10000) / 0x400) = true := by
    simp only [isLeadingSurrogate, Bool.and_eq_true, decide_eq_true_eq]
    omega
  have htrail : isTrailingSurrogate (0xDC00 + (c.toNat - 0x10000) % 0x400) = true := by
    simp only [isTrailingSurrogate, Bool.and_eq_true, decide_eq_true_eq]
    omega
  have hcode : 0x10000 + (0xD800 + (c.toNat - 0x10000) / 0x400 - 0xD800) * 0x400 +
      (0xDC00 + (c.toNat - 0x10000) % 0x400 - 0xDC00) = c.toNat := by
    omega
  simp only [readEscape, if_true, readCodePoint, readHex_append hleading, hfirst, hlead,
    readTrailing, readHex_append htrailing, htrail, hcode, Char.ofNat_toNat]
  simp

/-! ### Strings that are kept -/

/-- A quote ends the content. -/
theorem readContent_quote (rest : List UInt8) :
    readContent (0x22 :: rest) = .ok ([], rest) := by
  rw [readContent, if_pos rfl]

/-- An escape is put before what is read behind it. -/
theorem readContent_escape {escaped : List UInt8}
    (h : readEscape bytes = .ok (escaped, rest)) :
    readContent (0x5C :: bytes) =
      (readContent rest).map fun (content, rest) => (escaped ++ content, rest) := by
  rw [readContent, if_neg (by decide), if_pos rfl]
  split
  · next heq => simp [h] at heq
  · next heq =>
      rw [h, Except.ok.injEq, Prod.mk.injEq] at heq
      obtain ⟨rfl, rfl⟩ := heq
      cases readContent rest <;> rfl

/-- Bytes that may stand in a string as they are. -/
def AreRaw (bytes : List UInt8) : Prop :=
  ∀ byte ∈ bytes, 0x20 ≤ byte ∧ byte ≠ 0x22 ∧ byte ≠ 0x5C

/-- A byte may stand in a string as it is if its value is no control character, no quote and
no backslash. -/
theorem raw_toUInt8 {n : Nat} (hn : n < 0x100) (hcontrol : 0x20 ≤ n) (hquote : n ≠ 0x22)
    (hbackslash : n ≠ 0x5C) :
    0x20 ≤ n.toUInt8 ∧ n.toUInt8 ≠ 0x22 ∧ n.toUInt8 ≠ 0x5C := by
  simp only [UInt8.le_iff_toNat_le, ne_eq, ← UInt8.toNat_inj, toNat_toUInt8 hn]
  exact ⟨hcontrol, hquote, hbackslash⟩

/-- The bytes of a character that is written as it is may stand in a string: it is one byte
that is the character, or all of its bytes are beyond ASCII. -/
theorem areRaw_encodeChar (hcontrol : 0x20 ≤ c.toNat) (hquote : c ≠ '\x22')
    (hbackslash : c ≠ '\\') : AreRaw (Utf8.encodeChar c) := by
  have hvalid := Utf8.valid_toNat c
  have hquote : c.toNat ≠ 0x22 := fun h => hquote (Char.toNat_inj.mp h)
  have hbackslash : c.toNat ≠ 0x5C := fun h => hbackslash (Char.toNat_inj.mp h)
  simp only [Utf8.encodeChar]
  intro byte hbyte
  split at hbyte
  · simp only [List.mem_cons, List.not_mem_nil, or_false] at hbyte
    subst hbyte
    exact raw_toUInt8 (by omega) hcontrol hquote hbackslash
  split at hbyte
  · simp only [List.mem_cons, List.not_mem_nil, or_false] at hbyte
    rcases hbyte with rfl | rfl <;>
      exact raw_toUInt8 (by omega) (by omega) (by omega) (by omega)
  split at hbyte
  · simp only [List.mem_cons, List.not_mem_nil, or_false] at hbyte
    rcases hbyte with rfl | rfl | rfl <;>
      exact raw_toUInt8 (by omega) (by omega) (by omega) (by omega)
  · simp only [List.mem_cons, List.not_mem_nil, or_false] at hbyte
    rcases hbyte with rfl | rfl | rfl | rfl <;>
      exact raw_toUInt8 (by omega) (by omega) (by omega) (by omega)

/-- Raw bytes are content as they are. -/
theorem readContent_raw (h : AreRaw bytes) (rest : List UInt8) :
    readContent (bytes ++ rest) =
      (readContent rest).map fun (content, rest) => (bytes ++ content, rest) := by
  induction bytes with
  | nil => cases hrest : readContent rest <;> simp [Except.map, hrest]
  | cons byte bytes ih =>
      obtain ⟨⟨hcontrol, hquote, hbackslash⟩, hbytes⟩ := List.forall_mem_cons.mp h
      rw [List.cons_append, readContent, if_neg hquote, if_neg hbackslash,
        if_neg (UInt8.not_lt.mpr hcontrol), ih hbytes]
      cases readContent rest <;> rfl

/-- A spelling of a character gives its bytes. -/
theorem readContent_char (h : SpellsChar c bytes) (rest : List UInt8) :
    readContent (bytes ++ rest) =
      (readContent rest).map fun (content, rest) => (Utf8.encodeChar c ++ content, rest) := by
  cases h with
  | raw hcontrol hquote hbackslash =>
      exact readContent_raw (areRaw_encodeChar hcontrol hquote hbackslash) rest
  | short hmem =>
      obtain ⟨hletter, byte, hshort, hchar⟩ := shortEscape?_of_mem hmem
      rw [hchar, List.cons_append, List.cons_append, List.nil_append]
      refine readContent_escape ?_
      simp only [readEscape, if_neg hletter, hshort]
  | codePoint hdigits => exact readContent_escape (readEscape_codePoint hdigits rest)
  | surrogates hc hleading htrailing =>
      rw [List.cons_append, List.cons_append, List.append_assoc]
      exact readContent_escape (readEscape_surrogates hc hleading htrailing rest)

/-- A spelling of a text is read as its bytes. Induction on the characters. -/
theorem readContent_of_spellsChars (h : SpellsChars text bytes) (rest : List UInt8) :
    readContent (bytes ++ 0x22 :: rest) = .ok (Utf8.encode text, rest) := by
  induction h with
  | nil => exact readContent_quote rest
  | cons hchar _ ih =>
      rw [List.append_assoc, readContent_char hchar, ih]
      rfl

/-- A spelling of a string is read as the string, whatever follows. -/
theorem readString_of_spellsChars {value : String} (h : SpellsChars value.toList bytes)
    (rest : List UInt8) : readString (bytes ++ 0x22 :: rest) = .ok (value, rest) := by
  simp only [readString, readContent_of_spellsChars h, Utf8.decode_encode,
    String.ofList_toList]

/-! ### Strings that are skipped -/

/-- An escape is skipped as a whole. -/
theorem skipString_escape (h : skipEscape bytes = .ok rest) :
    skipString (0x5C :: bytes) = skipString rest := by
  rw [skipString, if_neg (by decide), if_pos rfl]
  split
  · next heq => simp [h] at heq
  · next heq =>
      rw [h, Except.ok.injEq] at heq
      rw [heq]

/-- An escape of four digits is skipped, whether or not it stands for a character. -/
theorem skipEscape_hex {n : Nat} (h : SpellsHex n bytes) (rest : List UInt8) :
    skipEscape (0x75 :: (bytes ++ rest)) = .ok rest := by
  simp only [skipEscape, if_true, readHex_append h]

/-- Raw bytes are skipped. -/
theorem skipString_raw (h : AreRaw bytes) (rest : List UInt8) :
    skipString (bytes ++ rest) = skipString rest := by
  induction bytes with
  | nil => rfl
  | cons byte bytes ih =>
      obtain ⟨⟨hcontrol, hquote, hbackslash⟩, hbytes⟩ := List.forall_mem_cons.mp h
      rw [List.cons_append, skipString, if_neg hquote, if_neg hbackslash,
        if_neg (UInt8.not_lt.mpr hcontrol), ih hbytes]

/-- A spelling of a character is passed over. -/
theorem skipString_char (h : SpellsChar c bytes) (rest : List UInt8) :
    skipString (bytes ++ rest) = skipString rest := by
  cases h with
  | raw hcontrol hquote hbackslash =>
      exact skipString_raw (areRaw_encodeChar hcontrol hquote hbackslash) rest
  | short hmem =>
      obtain ⟨hletter, byte, hshort, -⟩ := shortEscape?_of_mem hmem
      rw [List.cons_append, List.cons_append, List.nil_append]
      refine skipString_escape ?_
      simp only [skipEscape, if_neg hletter, hshort, Option.isSome_some, if_true]
  | codePoint hdigits => exact skipString_escape (skipEscape_hex hdigits rest)
  | surrogates _ hleading htrailing =>
      rw [List.cons_append, List.cons_append, List.append_assoc, List.cons_append,
        List.cons_append, skipString_escape (skipEscape_hex hleading _),
        skipString_escape (skipEscape_hex htrailing rest)]

/-- A spelling of a text is passed over up to the closing quote. -/
theorem skipString_of_spellsChars (h : SpellsChars text bytes) (rest : List UInt8) :
    skipString (bytes ++ 0x22 :: rest) = .ok rest := by
  induction h with
  | nil => rw [List.nil_append, skipString, if_pos rfl]
  | cons hchar _ ih => rw [List.append_assoc, skipString_char hchar, ih]

end Json

end InferenceConfig
