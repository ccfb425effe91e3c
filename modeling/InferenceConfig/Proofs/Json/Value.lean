import InferenceConfig.Json.Skip
import Mathlib.Data.List.TakeWhile
import Mathlib.Data.Rat.Defs

/-!
# JSON Values and Their Spellings

A JSON value can be spelt in many ways. White space may stand around every value, key, comma
and colon. A character of a string is written as it is, or by a short escape, or by the
hexadecimal digits of its code point in either case, or of two surrogates if it has more than
16 bits. A number has many decimal forms. Here the spellings are given as a grammar over
bytes that does not mention how values are read, and it allows all that the standard allows.

The members of an object are kept in order, and a key may occur several times.

## Main definitions

* `Json.Value` — the abstract values;
* `Json.SpellsNumber`, `Json.SpellsString` — the spellings of numbers and strings;
* `Json.Spells`, `Json.SpellsDocument` — the spellings of values and of whole documents;
* `Json.Value.StartsWith` — how the sorts of values are told apart by their first byte.

## Main results

* `Json.Spells.exists_startsWith` — the first byte of a value shows its sort.
-/

namespace InferenceConfig

namespace Json

/-- A JSON value. A number is the rational number that it denotes. -/
inductive Value where
  /-- The value `null`. -/
  | null
  /-- A truth value. -/
  | boolean (value : Bool)
  /-- A number. -/
  | number (value : ℚ)
  /-- A string. -/
  | string (value : String)
  /-- The elements, in order. -/
  | array (elements : List Value)
  /-- The members with their keys, in order. -/
  | object (members : List (String × Value))

/-! ### White space and numbers -/

/-- The bytes are white space. -/
def IsBlank (bytes : List UInt8) : Prop :=
  ∀ byte ∈ bytes, isSpace byte = true

/-- The bytes are decimal digits, perhaps none. -/
def AreDigits (bytes : List UInt8) : Prop :=
  ∀ byte ∈ bytes, isDigit byte = true

/-- The number that digits denote, most significant first. -/
def digitsValue (digits : List UInt8) : Nat :=
  digits.foldl (fun n byte => n * 10 + digitValue byte) 0

/-- The digits before the point: a zero alone, or digits of which the first is no zero. -/
inductive IsWhole : (digits : List UInt8) → Prop
  | zero : IsWhole [0x30]
  | positive {first : UInt8} {digits : List UInt8} :
      isDigit first = true → first ≠ 0x30 → AreDigits digits → IsWhole (first :: digits)

/-- The digits behind the point, and the point with them; there may be neither. -/
inductive SpellsFraction : (digits bytes : List UInt8) → Prop
  | none : SpellsFraction [] []
  | some {digits : List UInt8} :
      digits ≠ [] → AreDigits digits → SpellsFraction digits (0x2E :: digits)

/-- The exponent, which is zero if there is none. -/
inductive SpellsExponent : (exponent : Int) → (bytes : List UInt8) → Prop
  | none : SpellsExponent 0 []
  | up {letter : UInt8} {sign digits : List UInt8} :
      letter = 0x65 ∨ letter = 0x45 → sign = [] ∨ sign = [0x2B] → digits ≠ [] →
      AreDigits digits → SpellsExponent (digitsValue digits) (letter :: (sign ++ digits))
  | down {letter : UInt8} {digits : List UInt8} :
      letter = 0x65 ∨ letter = 0x45 → digits ≠ [] → AreDigits digits →
      SpellsExponent (-digitsValue digits) (letter :: 0x2D :: digits)

/-- The spellings of a number without a sign. -/
inductive SpellsUnsigned : (value : ℚ) → (bytes : List UInt8) → Prop
  | mk {whole decimals fraction power : List UInt8} {exponent : Int} :
      IsWhole whole → SpellsFraction decimals fraction → SpellsExponent exponent power →
      SpellsUnsigned
        (digitsValue (whole ++ decimals) * 10 ^ (exponent - (decimals.length : Int)))
        (whole ++ (fraction ++ power))

/-- The spellings of a number. -/
inductive SpellsNumber : (value : ℚ) → (bytes : List UInt8) → Prop
  | positive {value : ℚ} {bytes : List UInt8} :
      SpellsUnsigned value bytes → SpellsNumber value bytes
  | negative {value : ℚ} {bytes : List UInt8} :
      SpellsUnsigned value bytes → SpellsNumber (-value) (0x2D :: bytes)

/-! ### Strings -/

/-- The byte is the hexadecimal digit of the number, in either case. -/
def IsHexDigit (byte : UInt8) (n : Nat) : Prop :=
  (n < 10 ∧ byte.toNat = 0x30 + n) ∨
    (10 ≤ n ∧ n < 16 ∧ (byte.toNat = 0x41 + (n - 10) ∨ byte.toNat = 0x61 + (n - 10)))

/-- The four hexadecimal digits of a number of 16 bits. -/
inductive SpellsHex : (n : Nat) → (bytes : List UInt8) → Prop
  | mk {a b c d : Nat} {first second third fourth : UInt8} :
      IsHexDigit first a → IsHexDigit second b → IsHexDigit third c →
      IsHexDigit fourth d →
      SpellsHex (a * 0x1000 + b * 0x100 + c * 0x10 + d) [first, second, third, fourth]

/-- The short escapes: the letter behind the backslash, and the character meant. -/
def shortEscapes : List (UInt8 × Char) :=
  [(0x22, '\x22'), (0x5C, '\\'), (0x2F, '/'), (0x62, '\x08'), (0x66, '\x0c'),
    (0x6E, '\n'), (0x72, '\r'), (0x74, '\t')]

/-- The spellings of one character of a string: as it is, unless it is a control character, a
quote or a backslash; by a short escape; by its code point; by two surrogates. -/
inductive SpellsChar : (c : Char) → (bytes : List UInt8) → Prop
  | raw {c : Char} :
      0x20 ≤ c.toNat → c ≠ '\x22' → c ≠ '\\' → SpellsChar c (Utf8.encodeChar c)
  | short {letter : UInt8} {c : Char} :
      (letter, c) ∈ shortEscapes → SpellsChar c [0x5C, letter]
  | codePoint {c : Char} {digits : List UInt8} :
      SpellsHex c.toNat digits → SpellsChar c (0x5C :: 0x75 :: digits)
  | surrogates {c : Char} {leading trailing : List UInt8} :
      0x10000 ≤ c.toNat → SpellsHex (0xD800 + (c.toNat - 0x10000) / 0x400) leading →
      SpellsHex (0xDC00 + (c.toNat - 0x10000) % 0x400) trailing →
      SpellsChar c (0x5C :: 0x75 :: (leading ++ 0x5C :: 0x75 :: trailing))

/-- The spellings of the characters of a string, without its quotes. -/
inductive SpellsChars : (text : List Char) → (bytes : List UInt8) → Prop
  | nil : SpellsChars [] []
  | cons {c : Char} {text : List Char} {bytes rest : List UInt8} :
      SpellsChar c bytes → SpellsChars text rest → SpellsChars (c :: text) (bytes ++ rest)

/-- The spellings of a string. -/
inductive SpellsString : (value : String) → (bytes : List UInt8) → Prop
  | mk {value : String} {bytes : List UInt8} :
      SpellsChars value.toList bytes → SpellsString value (0x22 :: (bytes ++ [0x22]))

/-! ### Values -/

mutual

/-- The spellings of a value, from its first byte to its last. -/
inductive Spells : (value : Value) → (bytes : List UInt8) → Prop
  | null : Spells .null [0x6E, 0x75, 0x6C, 0x6C]
  | truth : Spells (.boolean true) [0x74, 0x72, 0x75, 0x65]
  | falsity : Spells (.boolean false) [0x66, 0x61, 0x6C, 0x73, 0x65]
  | number {value : ℚ} {bytes : List UInt8} :
      SpellsNumber value bytes → Spells (.number value) bytes
  | string {value : String} {bytes : List UInt8} :
      SpellsString value bytes → Spells (.string value) bytes
  | emptyArray {space : List UInt8} :
      IsBlank space → Spells (.array []) (0x5B :: (space ++ [0x5D]))
  | array {elements : List Value} {bytes : List UInt8} :
      SpellsElements elements bytes → Spells (.array elements) (0x5B :: (bytes ++ [0x5D]))
  | emptyObject {space : List UInt8} :
      IsBlank space → Spells (.object []) (0x7B :: (space ++ [0x7D]))
  | object {members : List (String × Value)} {bytes : List UInt8} :
      SpellsMembers members bytes → Spells (.object members) (0x7B :: (bytes ++ [0x7D]))

/-- The spellings of one or more elements, with commas between them. -/
inductive SpellsElements : (elements : List Value) → (bytes : List UInt8) → Prop
  | last {value : Value} {before bytes after : List UInt8} :
      IsBlank before → Spells value bytes → IsBlank after →
      SpellsElements [value] (before ++ (bytes ++ after))
  | cons {value : Value} {elements : List Value} {before bytes after rest : List UInt8} :
      IsBlank before → Spells value bytes → IsBlank after → SpellsElements elements rest →
      SpellsElements (value :: elements) (before ++ (bytes ++ (after ++ 0x2C :: rest)))

/-- The spellings of one or more members, with commas between them and a colon behind every
key. -/
inductive SpellsMembers : (members : List (String × Value)) → (bytes : List UInt8) → Prop
  | last {key : String} {value : Value} {before name gap between bytes after : List UInt8} :
      IsBlank before → SpellsString key name → IsBlank gap → IsBlank between →
      Spells value bytes → IsBlank after →
      SpellsMembers [(key, value)]
        (before ++ (name ++ (gap ++ 0x3A :: (between ++ (bytes ++ after)))))
  | cons {key : String} {value : Value} {members : List (String × Value)}
      {before name gap between bytes after rest : List UInt8} :
      IsBlank before → SpellsString key name → IsBlank gap → IsBlank between →
      Spells value bytes → IsBlank after → SpellsMembers members rest →
      SpellsMembers ((key, value) :: members)
        (before ++ (name ++ (gap ++ 0x3A :: (between ++ (bytes ++ (after ++ 0x2C :: rest))))))

end

/-- The spellings of a document: a value, with white space around it. -/
inductive SpellsDocument : (value : Value) → (bytes : List UInt8) → Prop
  | mk {value : Value} {before bytes after : List UInt8} :
      IsBlank before → Spells value bytes → IsBlank after →
      SpellsDocument value (before ++ (bytes ++ after))

/-! ### The bytes at both ends of a value -/

/-- A spelling of the value may start with the byte. -/
def Value.StartsWith : (value : Value) → (byte : UInt8) → Prop
  | .null, byte => byte = 0x6E
  | .boolean true, byte => byte = 0x74
  | .boolean false, byte => byte = 0x66
  | .number _, byte => byte = 0x2D ∨ isDigit byte = true
  | .string _, byte => byte = 0x22
  | .array _, byte => byte = 0x5B
  | .object _, byte => byte = 0x7B

/-- The bytes are empty, or they start with one that may follow a value: white space, a comma,
or the end of an array or an object. -/
def MayFollow : (bytes : List UInt8) → Prop
  | [] => True
  | byte :: _ => isSpace byte = true ∨ byte = 0x2C ∨ byte = 0x5D ∨ byte = 0x7D

variable {value : Value} {byte : UInt8} {bytes rest space : List UInt8}

/-- The four sorts of white space. -/
theorem isSpace_iff :
    isSpace byte = true ↔ byte = 0x20 ∨ byte = 0x0A ∨ byte = 0x0D ∨ byte = 0x09 := by
  simp [isSpace, or_assoc]

/-- A value starts with one of seven characters, or with a digit. -/
theorem Value.StartsWith.mem_or_isDigit (h : value.StartsWith byte) :
    byte ∈ [0x6E, 0x74, 0x66, 0x2D, 0x22, 0x5B, 0x7B] ∨ isDigit byte = true := by
  cases value with
  | boolean value =>
      cases value with
      | true => exact .inl (by simp [show byte = 0x74 from h])
      | false => exact .inl (by simp [show byte = 0x66 from h])
  | number value => exact h.imp_left fun hminus => by simp [hminus]
  | null => exact .inl (by simp [show byte = 0x6E from h])
  | string text => exact .inl (by simp [show byte = 0x22 from h])
  | array elements => exact .inl (by simp [show byte = 0x5B from h])
  | object members => exact .inl (by simp [show byte = 0x7B from h])

/-- No value starts with white space. -/
theorem Value.StartsWith.isSpace_eq_false (h : value.StartsWith byte) :
    isSpace byte = false := by
  rw [Bool.eq_false_iff]
  intro hspace
  rcases isSpace_iff.mp hspace with rfl | rfl | rfl | rfl <;>
    exact absurd h.mem_or_isDigit (by decide)

/-- No value starts with the end of an array or an object. -/
theorem Value.StartsWith.ne_closing (h : value.StartsWith byte) (bracket : Bracket) :
    byte ≠ bracket.closing := by
  rintro rfl
  cases bracket <;> exact absurd h.mem_or_isDigit (by decide)

/-- A number starts with a minus sign or a digit. -/
theorem SpellsNumber.exists_startsWith {number : ℚ} (h : SpellsNumber number bytes) :
    ∃ byte rest, bytes = byte :: rest ∧ (byte = 0x2D ∨ isDigit byte = true) := by
  cases h with
  | positive h =>
      obtain ⟨hwhole, -, -⟩ := h
      cases hwhole with
      | zero => exact ⟨_, _, rfl, .inr (by decide)⟩
      | positive hfirst _ _ => exact ⟨_, _, rfl, .inr hfirst⟩
  | negative _ => exact ⟨_, _, rfl, .inl rfl⟩

/-- The first byte of a value shows its sort. -/
theorem Spells.exists_startsWith (h : Spells value bytes) :
    ∃ byte rest, bytes = byte :: rest ∧ value.StartsWith byte := by
  cases h with
  | number h => exact h.exists_startsWith
  | string h =>
      cases h with
      | mk _ => exact ⟨_, _, rfl, rfl⟩
  | null | truth | falsity | emptyArray | array | emptyObject | object =>
      exact ⟨_, _, rfl, rfl⟩

/-! ### White space before a byte -/

/-- There need not be any white space. -/
theorem isBlank_nil : IsBlank [] := by
  simp [IsBlank]

/-- White space behind white space is white space. -/
theorem IsBlank.append {other : List UInt8} (hspace : IsBlank space) (hother : IsBlank other) :
    IsBlank (space ++ other) :=
  List.forall_mem_append.mpr ⟨hspace, hother⟩

/-- White space is skipped up to the first other byte. -/
theorem skipSpace_append (hspace : IsBlank space) (hbyte : isSpace byte = false) :
    skipSpace (space ++ byte :: rest) = byte :: rest := by
  rw [skipSpace, List.dropWhile_append_of_pos hspace,
    List.dropWhile_cons_of_neg (by simp [hbyte])]

/-- White space is skipped up to the end. -/
theorem skipSpace_of_isBlank (hspace : IsBlank space) : skipSpace space = [] :=
  List.dropWhile_eq_nil_iff.mpr hspace

/-- What may follow a value may also follow white space behind it. -/
theorem MayFollow.append (hspace : IsBlank space) (h : MayFollow rest) :
    MayFollow (space ++ rest) := by
  cases space with
  | nil => exact h
  | cons byte space => exact .inl (hspace byte List.mem_cons_self)

/-- A comma, behind white space or none, may follow a number. -/
theorem mayFollow_comma (hspace : IsBlank space) (rest : List UInt8) :
    MayFollow (space ++ 0x2C :: rest) :=
  .append hspace (.inr (.inl rfl))

/-- A closing bracket, behind white space or none, may follow a number. -/
theorem mayFollow_closing (hspace : IsBlank space) (bracket : Bracket) (rest : List UInt8) :
    MayFollow (space ++ bracket.closing :: rest) := by
  refine .append hspace ?_
  cases bracket with
  | array => exact .inr (.inr (.inl rfl))
  | object => exact .inr (.inr (.inr rfl))

end Json

end InferenceConfig
