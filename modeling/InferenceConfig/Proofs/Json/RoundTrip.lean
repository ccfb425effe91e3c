import InferenceConfig.Proofs.Json.Reading

/-!
# Messages Read Back from JSON

The document that is written for a message is one of the spellings of an object that denotes
the message: what is written for a character is a spelling of it, what is written on lines of
their own is separated by commas and white space, and the members of the object are the fields
of the table with their lists. So reading a message back is an instance of reading any
spelling.

## Main definitions

* `Json.objectOf` — the object that is written for a message.

## Main results

* `Json.spellsDocument_write` — what is written spells that object;
* `Json.denotes_objectOf` — the object denotes the message;
* `Json.decode_write` — a message is read back from its document.
-/

namespace InferenceConfig

namespace Json

variable {c : Char} {kind : Kind}

/-! ### Characters and strings -/

/-- A digit is written as one byte, in lower case. -/
theorem isHexDigit_hexDigit {n : Nat} (h : n < 16) :
    ∃ byte, Utf8.encodeChar (hexDigit n) = [byte] ∧ IsHexDigit byte n := by
  rw [hexDigit]
  split
  · next hlow =>
      have hvalue : (Char.ofNat (0x30 + n)).toNat = 0x30 + n := Utf8.toNat_ofNat (by omega)
      refine ⟨(0x30 + n).toUInt8, ?_, .inl ⟨hlow, toNat_toUInt8 (by omega)⟩⟩
      rw [Utf8.encodeChar, hvalue, if_pos (by omega)]
  · next hhigh =>
      have hvalue : (Char.ofNat (0x61 + (n - 10))).toNat = 0x61 + (n - 10) :=
        Utf8.toNat_ofNat (by omega)
      refine ⟨(0x61 + (n - 10)).toUInt8, ?_,
        .inr ⟨by omega, h, .inr (toNat_toUInt8 (by omega))⟩⟩
      rw [Utf8.encodeChar, hvalue, if_pos (by omega)]

/-- The escape of a control character is the one of its code point. -/
theorem spellsHex_control {n : Nat} (h : n < 0x20) :
    SpellsHex n (Utf8.encode ['0', '0', hexDigit (n / 16), hexDigit (n % 16)]) := by
  obtain ⟨first, hfirst, hhigh⟩ := isHexDigit_hexDigit (n := n / 16) (by omega)
  obtain ⟨second, hsecond, hlow⟩ := isHexDigit_hexDigit (n := n % 16) (by omega)
  have hbytes : Utf8.encode ['0', '0', hexDigit (n / 16), hexDigit (n % 16)] =
      [0x30, 0x30, first, second] := by
    show Utf8.encodeChar '0' ++ (Utf8.encodeChar '0' ++
      (Utf8.encodeChar (hexDigit (n / 16)) ++ (Utf8.encodeChar (hexDigit (n % 16)) ++ []))) = _
    rw [hfirst, hsecond]
    rfl
  have hvalue : n = 0 * 0x1000 + 0 * 0x100 + n / 16 * 0x10 + n % 16 := by omega
  rw [hbytes]
  nth_rewrite 1 [hvalue]
  exact .mk (.inl ⟨by decide, rfl⟩) (.inl ⟨by decide, rfl⟩) hhigh hlow

/-- What is written for a character is a spelling of it. -/
theorem spellsChar_escapeChar (c : Char) : SpellsChar c (Utf8.encode (escapeChar c)) := by
  have hshort : ∀ letter c, (letter, c) ∈ shortEscapes → SpellsChar c [0x5C, letter] :=
    fun _ _ => .short
  rw [escapeChar]
  split
  · next h =>
      subst h
      exact hshort 0x22 '\x22' (by decide)
  split
  · next h =>
      subst h
      exact hshort 0x5C '\\' (by decide)
  split
  · next h => exact h ▸ hshort 0x62 '\x08' (by decide)
  split
  · next h => exact h ▸ hshort 0x66 '\x0c' (by decide)
  split
  · next h => exact h ▸ hshort 0x6E '\n' (by decide)
  split
  · next h => exact h ▸ hshort 0x72 '\r' (by decide)
  split
  · next h => exact h ▸ hshort 0x74 '\t' (by decide)
  split
  · next h => exact .codePoint (spellsHex_control h)
  · next hquote hbackslash _ _ _ _ _ hcontrol =>
      rw [Utf8.encode_singleton]
      exact .raw (Nat.not_lt.mp hcontrol) hquote hbackslash

/-- What is written for the characters of a string spells them. -/
theorem spellsChars_escape (text : List Char) :
    SpellsChars text (Utf8.encode (text.flatMap escapeChar)) := by
  induction text with
  | nil => exact .nil
  | cons c text ih =>
      rw [List.flatMap_cons, Utf8.encode_append]
      exact .cons (spellsChar_escapeChar c) ih

/-- What is written for a string is a spelling of it. -/
theorem spellsString_writeString (value : String) :
    SpellsString value (Utf8.encode (writeString value.toList)) := by
  have hbytes : Utf8.encode (writeString value.toList) =
      0x22 :: (Utf8.encode (value.toList.flatMap escapeChar) ++ [0x22]) := by
    show 0x22 :: Utf8.encode (value.toList.flatMap escapeChar ++ ['\x22']) = _
    rw [Utf8.encode_append]
    rfl
  rw [hbytes]
  exact .mk (spellsChars_escape value.toList)

/-! ### Lines -/

/-- The end of a line and the indentation of the next one. -/
def indentation (indent : Nat) : List UInt8 :=
  Utf8.encode ('\n' :: List.replicate indent ' ')

/-- Spaces and line feeds are white space. -/
theorem isBlank_encode {text : List Char} (h : ∀ c ∈ text, c = ' ' ∨ c = '\n') :
    IsBlank (Utf8.encode text) := by
  intro byte hbyte
  obtain ⟨c, hc, hbyte⟩ := List.mem_flatMap.mp hbyte
  rcases h c hc with rfl | rfl
  · obtain rfl := List.mem_singleton.mp hbyte
    rfl
  · obtain rfl := List.mem_singleton.mp hbyte
    rfl

/-- Indentation is white space. -/
theorem isBlank_indentation (indent : Nat) : IsBlank (indentation indent) := by
  refine isBlank_encode (List.forall_mem_cons.mpr ⟨.inr rfl, fun c hc => .inl ?_⟩)
  exact List.eq_of_mem_replicate hc

/-- A single item is indented, and a line feed follows it. -/
theorem encode_writeLines_singleton (indent : Nat) (item : List Char) :
    Utf8.encode (writeLines indent [item]) =
      indentation indent ++ (Utf8.encode item ++ [0x0A]) := by
  rw [writeLines, ← List.cons_append, ← List.cons_append, Utf8.encode_append, Utf8.encode_append,
    List.append_assoc]
  rfl

/-- An item before others is indented, and a comma follows it. -/
theorem encode_writeLines_cons (indent : Nat) (item : List Char) {items : List (List Char)}
    (h : items ≠ []) :
    Utf8.encode (writeLines indent (item :: items)) =
      indentation indent ++ (Utf8.encode item ++
        ([] ++ 0x2C :: Utf8.encode (writeLines indent items))) := by
  rw [writeLines, ← List.cons_append, ← List.cons_append, Utf8.encode_append, Utf8.encode_append,
    List.append_assoc]
  · rfl
  · exact h

/-- A line feed is white space. -/
theorem isBlank_lineFeed : IsBlank [0x0A] := by
  simp [IsBlank, isSpace]

/-- Strings on lines of their own are the elements of an array. -/
theorem spellsElements_writeLines (indent : Nat) {space : List UInt8} (hspace : IsBlank space)
    (value : String) (values : List String) :
    SpellsElements ((value :: values).map .string)
      (Utf8.encode (writeLines indent ((value :: values).map fun value =>
        writeString value.toList)) ++ space) := by
  induction values generalizing value with
  | nil =>
      rw [List.map_singleton, List.map_singleton, encode_writeLines_singleton,
        List.append_assoc, List.append_assoc]
      exact .last (isBlank_indentation indent) (.string (spellsString_writeString value))
        (isBlank_lineFeed.append hspace)
  | cons next values ih =>
      -- Only the outer item is taken off, so that the other ones stay as in the hypothesis.
      show SpellsElements (.string value :: (next :: values).map .string)
        (Utf8.encode (writeLines indent (writeString value.toList ::
          (next :: values).map fun value => writeString value.toList)) ++ space)
      rw [encode_writeLines_cons indent _ (by simp), List.append_assoc, List.append_assoc,
        List.append_assoc, List.cons_append]
      exact .cons (isBlank_indentation indent) (.string (spellsString_writeString value))
        isBlank_nil (ih next)

/-- What is written for a list is a spelling of the array of its strings. -/
theorem spells_writeList (values : List String) :
    Spells (.ofStrings values) (Utf8.encode (writeList values)) := by
  cases values with
  | nil => exact .emptyArray isBlank_nil
  | cons value values =>
      have hspace : IsBlank [0x20, 0x20] := by simp [IsBlank, isSpace]
      have helements := spellsElements_writeLines 4 hspace value values
      have hbytes : Utf8.encode (writeList (value :: values)) =
          0x5B :: (Utf8.encode (writeLines 4 ((value :: values).map fun value =>
            writeString value.toList)) ++ [0x20, 0x20] ++ [0x5D]) := by
        rw [List.append_assoc]
        show 0x5B :: Utf8.encode (_ ++ [' ', ' ', ']']) = _
        rw [Utf8.encode_append]
        rfl
      rw [hbytes]
      exact .array helements

/-! ### Documents -/

/-- The object that is written for a message: a member for each field. -/
def objectOf (message : Message kind) : Value :=
  .object (kind.fields.map fun field =>
    (field.name, .ofStrings (message.values field.number)))

/-- Members on lines of their own are the members of an object. -/
theorem spellsMembers_writeLines (indent : Nat) (lists : Nat → List String) (field : Field)
    (fields : List Field) :
    SpellsMembers ((field :: fields).map fun field =>
        (field.name, .ofStrings (lists field.number)))
      (Utf8.encode (writeLines indent ((field :: fields).map fun field =>
        writeMember field (lists field.number)))) := by
  have hspace : IsBlank [0x20] := by simp [IsBlank, isSpace]
  have hmember : ∀ field, Utf8.encode (writeMember field (lists field.number)) =
      Utf8.encode (writeString field.name.toList) ++
        ([] ++ 0x3A :: ([0x20] ++ Utf8.encode (writeList (lists field.number)))) := by
    intro field
    rw [writeMember, Utf8.encode_append]
    rfl
  induction fields generalizing field with
  | nil =>
      rw [List.map_singleton, List.map_singleton, encode_writeLines_singleton, hmember]
      simp only [List.append_assoc, List.cons_append]
      exact .last (isBlank_indentation indent) (spellsString_writeString field.name) isBlank_nil
        hspace (spells_writeList _) isBlank_lineFeed
  | cons next fields ih =>
      show SpellsMembers ((field.name, .ofStrings (lists field.number)) ::
          (next :: fields).map fun field => (field.name, .ofStrings (lists field.number)))
        (Utf8.encode (writeLines indent (writeMember field (lists field.number) ::
          (next :: fields).map fun field => writeMember field (lists field.number))))
      rw [encode_writeLines_cons indent _ (by simp), hmember]
      simp only [List.append_assoc, List.cons_append]
      exact .cons (isBlank_indentation indent) (spellsString_writeString field.name) isBlank_nil
        hspace (spells_writeList _) isBlank_nil (ih next)

/-- What is written for a message is an object, which ends with its bracket, and a line feed. -/
theorem exists_spells_write (message : Message kind) :
    ∃ inside, Utf8.encode (write message) = inside ++ [0x7D, 0x0A] ∧
      Spells (objectOf message) (inside ++ [0x7D]) := by
  have hfields : kind.fields ≠ [] := by cases kind <;> simp [Kind.fields]
  obtain ⟨field, fields, hkind⟩ := List.exists_cons_of_ne_nil hfields
  have hmembers := spellsMembers_writeLines 2 message.values field fields
  rw [← hkind] at hmembers
  refine ⟨0x7B :: Utf8.encode (writeLines 2 (kind.fields.map fun field =>
    writeMember field (message.values field.number))), ?_, .object hmembers⟩
  show 0x7B :: Utf8.encode (_ ++ ['\x7d', '\n']) = _
  rw [Utf8.encode_append]
  rfl

/-- What is written for a message is a document that spells its object. -/
theorem spellsDocument_write (message : Message kind) :
    SpellsDocument (objectOf message) (Utf8.encode (write message)) := by
  obtain ⟨inside, hbytes, hspells⟩ := exists_spells_write message
  have hdocument : SpellsDocument (objectOf message) ([] ++ (inside ++ [0x7D] ++ [0x0A])) :=
    .mk isBlank_nil hspells isBlank_lineFeed
  rwa [List.nil_append, List.append_assoc, List.singleton_append, ← hbytes] at hdocument

/-- The members of the object give each field its list. -/
theorem denotes_objectOf (message : Message kind) : (objectOf message).Denotes message := by
  have honly : ∀ field ∈ kind.fields,
      (kind.fields.filter fun other => other.name == field.name) = [field] := by
    cases kind <;> decide
  intro field hfield
  have hkey : Value.underKey field.name (kind.fields.map fun field =>
      (field.name, .ofStrings (message.values field.number))) =
        [.ofStrings (message.values field.number)] := by
    rw [Value.underKey, List.filter_map, List.map_map]
    simp only [Function.comp_def]
    rw [honly field hfield, List.map_singleton]
  rw [hkey]
  exact .present

/-- What is written for a message is read as that message. -/
theorem read_encode_write (message : Message kind) :
    read kind (Utf8.encode (write message)) = .ok message :=
  (read_eq_ok_iff (spellsDocument_write message)).mpr (denotes_objectOf message)

/-- **A message is read back from its JSON document**, whatever characters its values hold and
however many there are. Nothing is logged, and the origin that is named for the document does
not matter. -/
theorem decode_write (message : Message kind) (origin : String) :
    Document.decodeTraced kind .json origin (Document.encode .json message) =
      ([], .ok message) := by
  rw [Document.decodeTraced_json, Document.encode, read_encode_write]
  rfl

end Json

end InferenceConfig
