import InferenceConfig.Document.Codec
import InferenceConfig.Proofs.Json.Denotation
import InferenceConfig.Proofs.Json.Skip

/-!
# Reading Any Spelling of a Value

What the reader makes of a spelling depends on the value alone. At every place of the document
it does what the collection of lists does on the value that is spelt there: it comes to what
follows the value, with what is collected from it, or it fails. The white space, the escapes
and the other choices of the spelling have no influence on that, and neither have the values of
unknown members, which are skipped.

Between two elements the reader stands before a comma or the end of the array. `AtElements`
says that it stands before the given elements, the first ones or later ones, and `AtMembers`
says the same for the members of an object. From one such place to the next is one step of the
reader, and the whole array or object is read by induction on what is before it.

## Main definitions

* `Json.Yields` — what a reader makes of a value, and where it stops;
* `Json.AtElements`, `Json.AtMembers` — places inside an array and inside an object.

## Main results

* `Json.readStrings_of_atElements`, `Json.readElements_of_atElements`,
  `Json.readMembers_of_atMembers` — what is read from the places on;
* `Json.readMessage_of_spells` — the message of a value;
* `Document.decode_spelling` — the document of a value is decoded to the message denoted.
-/

namespace InferenceConfig

namespace Json

variable {α : Type} {value : Value} {bytes rest start : List UInt8} {first : Bool}

/-- The reader gives the result and stops before `rest`, or it fails if there is none. -/
def Yields (outcome : Read α) (result : Option α) (rest : List UInt8) : Prop :=
  match result with
  | some value => outcome = .ok (value, rest)
  | none => ∃ failure, outcome = .error failure

/-- One reader after another: the second one goes on where the first one stops. -/
theorem Yields.bind {β : Type} {outcome : Read α} {result : Option α} {tail : List UInt8}
    {next : α × List UInt8 → Read β} {f : α → Option β} (h : Yields outcome result tail)
    (hnext : ∀ value, result = some value → Yields (next (value, tail)) (f value) rest) :
    Yields (outcome.bind next) (result.bind f) rest := by
  cases result with
  | none =>
      obtain ⟨failure, rfl⟩ := h
      exact ⟨failure, rfl⟩
  | some value =>
      rw [show outcome = .ok (value, tail) from h]
      exact hnext value rfl

/-- What is done with the value afterwards does not move the reader. -/
theorem Yields.map {β : Type} {outcome : Read α} {result : Option α}
    (h : Yields outcome result rest) (f : α → β) :
    Yields (outcome.map fun (value, rest) => (f value, rest)) (result.map f) rest := by
  cases result with
  | none =>
      obtain ⟨failure, rfl⟩ := h
      exact ⟨failure, rfl⟩
  | some value =>
      rw [show outcome = .ok (value, rest) from h]
      rfl

/-! ### Places in an array -/

/-- A reader that starts at `start` stands before the elements, behind which the array ends,
and `rest` follows. If they are the `first` ones, no comma is due before them. -/
inductive AtElements (first : Bool) (start : List UInt8) :
    (elements : List Value) → (rest : List UInt8) → Prop
  | closed {rest : List UInt8} :
      nextElement first start = .ok (.closed rest) → AtElements first start [] rest
  | starts {elements : List Value} {bytes rest : List UInt8} :
      SpellsElements elements bytes →
      nextElement first start = .ok (.starts (skipSpace (bytes ++ 0x5D :: rest))) →
      AtElements first start elements rest

/-- A closing bracket ends an array at any place between elements. -/
theorem nextElement_closed (hstart : skipSpace start = 0x5D :: rest) (first : Bool) :
    nextElement first start = .ok (.closed rest) := by
  rw [nextElement, hstart]
  rfl

/-- The first element stands right behind the opening bracket. -/
theorem nextElement_first {next : UInt8} (hstart : skipSpace start = next :: rest)
    (hnext : next ≠ 0x5D) : nextElement true start = .ok (.starts (next :: rest)) := by
  rw [nextElement, hstart]
  simp only [if_neg hnext, if_true]

/-- A comma leads to the next element, if no closing bracket follows it. -/
theorem nextElement_comma {next : UInt8} (hstart : skipSpace start = 0x2C :: bytes)
    (hbytes : skipSpace bytes = next :: rest) (hnext : next ≠ 0x5D) :
    nextElement false start = .ok (.starts (next :: rest)) := by
  rw [nextElement, hstart]
  simp only [hbytes, if_neg hnext]
  rfl

/-- Where an array ends, a closing bracket stands. -/
theorem skipSpace_of_nextElement_closed (h : nextElement first start = .ok (.closed rest)) :
    skipSpace start = 0x5D :: rest := by
  rw [nextElement] at h
  split at h
  · simp at h
  · next heq =>
      split at h
      · next hbyte =>
          rw [Except.ok.injEq, Next.closed.injEq] at h
          rw [heq, hbyte, h]
      · split at h
        · simp at h
        · split at h
          · split at h
            · simp at h
            · split at h <;> simp at h
          · simp at h

/-- Where an element starts, no closing bracket stands. -/
theorem skipSpace_of_nextElement_starts {next : List UInt8}
    (h : nextElement first start = .ok (.starts next)) :
    ∃ byte tail, skipSpace start = byte :: tail ∧ byte ≠ 0x5D := by
  rw [nextElement] at h
  split at h
  · simp at h
  · next byte tail heq =>
      split at h
      · simp at h
      · next hbyte => exact ⟨byte, tail, heq, hbyte⟩

/-- An array is read from before its first element. -/
theorem Spells.atElements {elements : List Value} (h : Spells (.array elements) bytes)
    (rest : List UInt8) :
    ∃ inside, bytes ++ rest = 0x5B :: inside ∧ AtElements true inside elements rest := by
  cases h with
  | emptyArray hspace =>
      refine ⟨_, List.cons_append, .closed (nextElement_closed ?_ true)⟩
      rw [List.append_assoc]
      exact Json.skipSpace_append hspace (by decide)
  | array helements =>
      obtain ⟨next, inner, hinner, hnext⟩ := helements.exists_skipSpace (0x5D :: rest)
      refine ⟨_, List.cons_append, .starts helements ?_⟩
      rw [List.append_assoc, List.singleton_append, hinner]
      exact nextElement_first hinner hnext

/-- Before no element, the array ends. -/
theorem AtElements.nil (h : AtElements first start [] rest) :
    nextElement first start = .ok (.closed rest) := by
  cases h with
  | closed hclosed => exact hclosed
  | starts helements => nomatch helements

/-- From before an element, a reader comes to the element, and behind it to the next place. -/
theorem AtElements.cons {elements : List Value}
    (h : AtElements first start (value :: elements) rest) :
    ∃ next bytes tail, nextElement first start = .ok (.starts next) ∧
      skipSpace next = bytes ++ tail ∧ Spells value bytes ∧ MayFollow tail ∧
        AtElements false tail elements rest := by
  cases h with
  | starts helements hstarts =>
      cases helements with
      | last hbefore hvalue hafter =>
          rw [List.append_assoc, List.append_assoc, hvalue.skipSpace_append hbefore] at hstarts
          refine ⟨_, _, _, hstarts, hvalue.skipSpace_append isBlank_nil, hvalue,
            mayFollow_closing hafter .array rest, .closed ?_⟩
          exact nextElement_closed (Json.skipSpace_append hafter (by decide)) false
      | cons hbefore hvalue hafter helements =>
          rw [List.append_assoc, List.append_assoc, hvalue.skipSpace_append hbefore,
            List.append_assoc, List.cons_append] at hstarts
          refine ⟨_, _, _, hstarts, hvalue.skipSpace_append isBlank_nil, hvalue,
            mayFollow_comma hafter _, .starts helements ?_⟩
          obtain ⟨next, inner, hinner, hnext⟩ := helements.exists_skipSpace (0x5D :: rest)
          rw [hinner]
          exact nextElement_comma (Json.skipSpace_append hafter (by decide)) hinner hnext

/-! ### Lists of strings -/

/-- Only strings start with a quote. -/
theorem Value.StartsWith.exists_string (h : value.StartsWith 0x22) :
    ∃ text, value = .string text := by
  cases value with
  | string text => exact ⟨text, rfl⟩
  | boolean value => cases value <;> simp [StartsWith] at h
  | null | number | array | object => simp [StartsWith, isDigit] at h

/-- Only arrays start with a square bracket. -/
theorem Value.StartsWith.exists_array (h : value.StartsWith 0x5B) :
    ∃ elements, value = .array elements := by
  cases value with
  | array elements => exact ⟨elements, rfl⟩
  | boolean value => cases value <;> simp [StartsWith] at h
  | null | number | string | object => simp [StartsWith, isDigit] at h

/-- Only objects start with a brace. -/
theorem Value.StartsWith.exists_object (h : value.StartsWith 0x7B) :
    ∃ members, value = .object members := by
  cases value with
  | object members => exact ⟨members, rfl⟩
  | boolean value => cases value <;> simp [StartsWith] at h
  | null | number | string | array => simp [StartsWith, isDigit] at h

/-- A string is read, and any other value is refused. -/
theorem readStringValue_of_spells (h : Spells value bytes)
    (hstart : skipSpace start = bytes ++ rest) :
    Yields (readStringValue start) value.string? rest := by
  obtain ⟨byte, tail, hbytes, hbyte⟩ := h.exists_startsWith
  rw [readStringValue, hstart]
  by_cases hquote : byte = 0x22
  · subst hquote
    obtain ⟨text, rfl⟩ := hbyte.exists_string
    cases h with
    | string hstring =>
        obtain ⟨hchars⟩ := hstring
        rw [List.cons_append, List.append_assoc, List.singleton_append]
        exact readString_of_spellsChars hchars rest
  · have hnone : value.string? = none := by
      cases value with
      | string text => exact absurd hbyte hquote
      | null | boolean | number | array | object => rfl
    rw [hnone, hbytes, List.cons_append]
    simp only [if_neg hquote]
    exact ⟨_, rfl⟩

/-- At the end of the array, there are no more strings. -/
theorem readStrings_closed (h : nextElement first start = .ok (.closed rest)) :
    readStrings first start = .ok ([], rest) := by
  rw [readStrings]
  split
  · next hnext => simp [h] at hnext
  · next hnext =>
      rw [h, Except.ok.injEq, Next.closed.injEq] at hnext
      rw [hnext]
  · next hnext => simp [h] at hnext

/-- One string is read at each element, and the others behind it. -/
theorem readStrings_starts {next : List UInt8}
    (h : nextElement first start = .ok (.starts next)) :
    readStrings first start =
      (readStringValue next).bind fun (value, rest) =>
        (readStrings false rest).map fun (values, rest) => (value :: values, rest) := by
  rw [readStrings]
  split
  · next hnext => simp [h] at hnext
  · next hnext => simp [h] at hnext
  · next hnext =>
      rw [h, Except.ok.injEq, Next.starts.injEq] at hnext
      subst hnext
      split
      · next hvalue => rw [hvalue]; rfl
      · next hvalue =>
          rw [hvalue]
          cases hrest : readStrings false _ <;> simp [Except.bind, Except.map, hrest]

/-- From before elements, the strings are read up to the end of the array, if all elements are
strings. Induction on the elements. -/
theorem readStrings_of_atElements {elements : List Value}
    (h : AtElements first start elements rest) :
    Yields (readStrings first start) (elements.mapM Value.string?) rest := by
  induction elements generalizing first start with
  | nil => exact readStrings_closed h.nil
  | cons value elements ih =>
      obtain ⟨next, bytes, tail, hnext, hskip, hvalue, -, hrest⟩ := h.cons
      rw [readStrings_starts hnext, Value.mapM_string?_cons]
      exact (readStringValue_of_spells hvalue hskip).bind fun text _ =>
        (ih hrest).map (text :: ·)

/-- An array of strings is read, and any other value is refused. -/
theorem readList_of_spells (h : Spells value bytes)
    (hstart : skipSpace start = bytes ++ rest) :
    Yields (readList start) value.strings? rest := by
  obtain ⟨byte, tail, hbytes, hbyte⟩ := h.exists_startsWith
  rw [readList, hstart]
  by_cases hbracket : byte = 0x5B
  · subst hbracket
    obtain ⟨elements, rfl⟩ := hbyte.exists_array
    obtain ⟨inside, hinside, helements⟩ := h.atElements rest
    rw [hinside]
    exact readStrings_of_atElements helements
  · have hnone : value.strings? = none := by
      cases value with
      | array elements => exact absurd hbyte hbracket
      | null | boolean | number | string | object => rfl
    rw [hnone, hbytes, List.cons_append]
    simp only [if_neg hbracket]
    exact ⟨_, rfl⟩

/-! ### Messages as arrays -/

/-- The end of an array is found where no element follows. -/
theorem readArrayEnd_closed (h : nextElement first start = .ok (.closed rest)) :
    readArrayEnd start = .ok rest := by
  rw [readArrayEnd, skipSpace_of_nextElement_closed h]
  rfl

/-- Behind the lists of all fields, no element may stand. -/
theorem readArrayEnd_starts {next : List UInt8}
    (h : nextElement first start = .ok (.starts next)) :
    ∃ failure, readArrayEnd start = .error failure := by
  obtain ⟨byte, tail, hstart, hbyte⟩ := skipSpace_of_nextElement_starts h
  rw [readArrayEnd, hstart]
  simp only [if_neg hbyte]
  split
  · split
    · exact ⟨_, rfl⟩
    · split <;> exact ⟨_, rfl⟩
  · exact ⟨_, rfl⟩

/-- At the end of the array, the fields that are left get no lists. -/
theorem readElements_closed (h : nextElement first start = .ok (.closed rest))
    (fields : List Field) : readElements fields first start = .ok ([], rest) := by
  cases fields with
  | nil => rw [readElements, readArrayEnd_closed h]
  | cons field fields => rw [readElements, h]

/-- The list of the next field is read at each element, and those of the later fields behind it. -/
theorem readElements_starts {next : List UInt8} {field : Field} {fields : List Field}
    (h : nextElement first start = .ok (.starts next)) :
    readElements (field :: fields) first start =
      (readList next).bind fun (list, rest) =>
        (readElements fields false rest).map fun (lists, rest) =>
          ((field, list) :: lists, rest) := by
  simp only [readElements, h]
  cases hlist : readList next with
  | error failure => rfl
  | ok read =>
      cases hrest : readElements fields false read.2 <;>
        simp [Except.bind, Except.map, hrest]

/-- From before elements, the lists are collected up to the end of the array. Induction on the
elements, one for each field. -/
theorem readElements_of_atElements {elements : List Value} {fields : List Field}
    (h : AtElements first start elements rest) :
    Yields (readElements fields first start) (Value.collectElements fields elements) rest := by
  induction elements generalizing fields first start with
  | nil =>
      rw [Value.collectElements]
      exact readElements_closed h.nil fields
  | cons value elements ih =>
      obtain ⟨next, bytes, tail, hnext, hskip, hvalue, -, hrest⟩ := h.cons
      cases fields with
      | nil =>
          obtain ⟨failure, hfailure⟩ := readArrayEnd_starts hnext
          exact ⟨failure, by rw [readElements, hfailure]⟩
      | cons field fields =>
          rw [readElements_starts hnext, Value.collectElements]
          exact (readList_of_spells hvalue hskip).bind fun list _ =>
            (ih hrest).map ((field, list) :: ·)

/-! ### Messages as objects -/

/-- A reader that starts at `start` stands before the members, behind which the object ends,
and `rest` follows. If they are the `first` ones, no comma is due before them. -/
inductive AtMembers (first : Bool) (start : List UInt8) :
    (members : List (String × Value)) → (rest : List UInt8) → Prop
  | closed {rest : List UInt8} :
      nextKey first start = .ok (.closed rest) → AtMembers first start [] rest
  | starts {members : List (String × Value)} {bytes next rest : List UInt8} :
      SpellsMembers members bytes → skipSpace (bytes ++ 0x7D :: rest) = 0x22 :: next →
      nextKey first start = .ok (.starts next) → AtMembers first start members rest

/-- A closing brace ends an object at any place between members. -/
theorem nextKey_closed (hstart : skipSpace start = 0x7D :: rest) (first : Bool) :
    nextKey first start = .ok (.closed rest) := by
  rw [nextKey, hstart]
  rfl

/-- The first key stands right behind the opening brace. -/
theorem nextKey_first (hstart : skipSpace start = 0x22 :: rest) :
    nextKey true start = .ok (.starts rest) := by
  rw [nextKey, hstart]
  rfl

/-- A comma leads to the next key. -/
theorem nextKey_comma (hstart : skipSpace start = 0x2C :: bytes)
    (hbytes : skipSpace bytes = 0x22 :: rest) : nextKey false start = .ok (.starts rest) := by
  rw [nextKey, hstart]
  simp only [hbytes]
  rfl

/-- An object is read from before its first member. -/
theorem Spells.atMembers {members : List (String × Value)}
    (h : Spells (.object members) bytes) (rest : List UInt8) :
    ∃ inside, bytes ++ rest = 0x7B :: inside ∧ AtMembers true inside members rest := by
  cases h with
  | emptyObject hspace =>
      refine ⟨_, List.cons_append, .closed (nextKey_closed ?_ true)⟩
      rw [List.append_assoc]
      exact Json.skipSpace_append hspace (by decide)
  | object hmembers =>
      obtain ⟨inner, hinner⟩ := hmembers.exists_skipSpace (0x7D :: rest)
      refine ⟨_, List.cons_append, .starts hmembers hinner ?_⟩
      rw [List.append_assoc, List.singleton_append]
      exact nextKey_first hinner

/-- Before no member, the object ends. -/
theorem AtMembers.nil (h : AtMembers first start [] rest) :
    nextKey first start = .ok (.closed rest) := by
  cases h with
  | closed hclosed => exact hclosed
  | starts hmembers => nomatch hmembers

/-- A key is read from behind its opening quote. -/
theorem readString_of_spellsString {key : String} {name next : List UInt8}
    (h : SpellsString key name) (hnext : name ++ rest = 0x22 :: next) :
    readString next = .ok (key, rest) := by
  obtain ⟨hchars⟩ := h
  rw [List.cons_append, List.append_assoc, List.singleton_append, List.cons.injEq] at hnext
  rw [← hnext.2]
  exact readString_of_spellsChars hchars rest

/-- From before a member, a reader comes to the key, to the value behind the colon, and behind
it to the next place. -/
theorem AtMembers.cons {key : String} {members : List (String × Value)}
    (h : AtMembers first start ((key, value) :: members) rest) :
    ∃ next colon valueStart bytes tail, nextKey first start = .ok (.starts next) ∧
      readString next = .ok (key, colon) ∧ readColon colon = .ok valueStart ∧
        skipSpace valueStart = bytes ++ tail ∧ Spells value bytes ∧ MayFollow tail ∧
          AtMembers false tail members rest := by
  cases h with
  | starts hmembers hskip hstarts =>
      cases hmembers with
      | last hbefore hname hgap hbetween hvalue hafter =>
          rw [List.append_assoc, List.append_assoc, hname.skipSpace_append hbefore,
            List.append_assoc, List.cons_append, List.append_assoc, List.append_assoc] at hskip
          exact ⟨_, _, _, _, _, hstarts, readString_of_spellsString hname hskip,
            readColon_append hgap _, hvalue.skipSpace_append hbetween, hvalue,
            mayFollow_closing hafter .object rest,
            .closed (nextKey_closed (Json.skipSpace_append hafter (by decide)) false)⟩
      | cons hbefore hname hgap hbetween hvalue hafter hmembers =>
          rw [List.append_assoc, List.append_assoc, hname.skipSpace_append hbefore,
            List.append_assoc, List.cons_append, List.append_assoc, List.append_assoc,
            List.append_assoc, List.cons_append] at hskip
          obtain ⟨inner, hinner⟩ := hmembers.exists_skipSpace (0x7D :: rest)
          exact ⟨_, _, _, _, _, hstarts, readString_of_spellsString hname hskip,
            readColon_append hgap _, hvalue.skipSpace_append hbetween, hvalue,
            mayFollow_comma hafter _, .starts hmembers hinner
              (nextKey_comma (Json.skipSpace_append hafter (by decide)) hinner)⟩

variable {kind : Kind}

/-- At the end of the object, what was found is all there is. -/
theorem readMembers_closed (h : nextKey first start = .ok (.closed rest)) (found : Lists) :
    readMembers kind found first start = .ok (found, rest) := by
  rw [readMembers]
  split
  · next hnext => simp [h] at hnext
  · next hnext =>
      rw [h, Except.ok.injEq, Next.closed.injEq] at hnext
      rw [hnext]
  · next hnext => simp [h] at hnext

/-- The key of each member decides what becomes of its value: it is skipped, refused as a second
one, or read as the list of a field. -/
theorem readMembers_starts {next colon : List UInt8} {key : String}
    (h : nextKey first start = .ok (.starts next)) (hkey : readString next = .ok (key, colon))
    (found : Lists) :
    readMembers kind found first start =
      match kind.fieldWithName? key with
      | none => (skipMember colon).bind fun rest => readMembers kind found false rest
      | some field =>
        if found.any fun entry => entry.1.number == field.number then
          .error (duplicate field colon)
        else
          (readMember colon).bind fun (list, rest) =>
            readMembers kind (found ++ [(field, list)]) false rest := by
  rw [readMembers]
  split
  · next hnext => simp [h] at hnext
  · next hnext => simp [h] at hnext
  · next hnext =>
      rw [h, Except.ok.injEq, Next.starts.injEq] at hnext
      subst hnext
      split
      · next hread => simp [hkey] at hread
      · next hread =>
          rw [hkey, Except.ok.injEq, Prod.mk.injEq] at hread
          obtain ⟨rfl, rfl⟩ := hread
          cases kind.fieldWithName? key with
          | none =>
              dsimp only
              split
              · next hskip => rw [hskip]; rfl
              · next hskip => rw [hskip]; rfl
          | some field =>
              dsimp only
              split
              · rfl
              · split
                · next hlist => rw [hlist]; rfl
                · next hlist => rw [hlist]; rfl

/-- From before members, the lists are collected up to the end of the object. Induction on the
members: an unknown one is skipped, and a known one is read unless its field occurred before. -/
theorem readMembers_of_atMembers {members : List (String × Value)} {found : Lists}
    (h : AtMembers first start members rest) :
    Yields (readMembers kind found first start) (Value.collectMembers kind found members)
      rest := by
  induction members generalizing found first start with
  | nil => exact readMembers_closed h.nil found
  | cons member members ih =>
      obtain ⟨key, value⟩ := member
      obtain ⟨next, colon, valueStart, bytes, tail, hnext, hkey, hcolon, hskip, hvalue, htail,
        hrest⟩ := h.cons
      rw [readMembers_starts hnext hkey, Value.collectMembers]
      cases kind.fieldWithName? key with
      | none =>
          have hskipped : skipMember colon = .ok tail := by
            simp only [skipMember, hcolon, skipValue_of_spells hvalue htail hskip]
          simp only [hskipped]
          exact ih hrest
      | some field =>
          by_cases hfound : (found.any fun entry => entry.1.number == field.number) = true
          · -- A second member of the field is refused before its value is read.
            simp only [hfound, if_true]
            exact ⟨_, rfl⟩
          · simp only [hfound, Bool.false_eq_true, if_false]
            have hlist : readMember colon = readList valueStart := by
              simp only [readMember, hcolon]
            rw [hlist]
            exact (readList_of_spells hvalue hskip).bind fun list _ => ih hrest

/-! ### Documents -/

/-- Behind a square bracket, a message is read from elements. -/
theorem readMessage_array (hstart : skipSpace start = 0x5B :: rest) :
    readMessage kind start =
      (readElements kind.fields true rest).map fun (lists, rest) =>
        (Lists.toMessage kind lists, rest) := by
  simp only [readMessage, hstart, if_true]
  cases readElements kind.fields true rest <;> rfl

/-- Behind a brace, a message is read from members. -/
theorem readMessage_object (hstart : skipSpace start = 0x7B :: rest) :
    readMessage kind start =
      (readMembers kind [] true rest).map fun (lists, rest) =>
        (Lists.toMessage kind lists, rest) := by
  have hbyte : (0x7B : UInt8) ≠ 0x5B := by decide
  simp only [readMessage, hstart, if_neg hbyte, if_true]
  cases readMembers kind [] true rest <;> rfl

/-- The message of a value is read, whatever the spelling of the value is, and a value that is
no message is refused. -/
theorem readMessage_of_spells (kind : Kind) (h : Spells value bytes)
    (hstart : skipSpace start = bytes ++ rest) :
    Yields (readMessage kind start) (value.message? kind) rest := by
  obtain ⟨byte, tail, hbytes, hbyte⟩ := h.exists_startsWith
  by_cases harray : byte = 0x5B
  · subst harray
    obtain ⟨elements, rfl⟩ := hbyte.exists_array
    obtain ⟨inside, hinside, helements⟩ := h.atElements rest
    rw [readMessage_array (hstart.trans hinside)]
    exact (readElements_of_atElements helements).map (Lists.toMessage kind)
  by_cases hobject : byte = 0x7B
  · subst hobject
    obtain ⟨members, rfl⟩ := hbyte.exists_object
    obtain ⟨inside, hinside, hmembers⟩ := h.atMembers rest
    rw [readMessage_object (hstart.trans hinside)]
    exact (readMembers_of_atMembers hmembers).map (Lists.toMessage kind)
  · have hnone : value.message? kind = none := by
      cases value with
      | array elements => exact absurd hbyte harray
      | object members => exact absurd hbyte hobject
      | null | boolean | number | string => rfl
    rw [hnone]
    rw [hbytes, List.cons_append] at hstart
    simp only [readMessage, hstart, if_neg harray, if_neg hobject]
    exact ⟨_, rfl⟩

/-- A whole document is read as the message that its value denotes. -/
theorem read_eq_ok_iff (h : SpellsDocument value bytes) {message : Message kind} :
    read kind bytes = .ok message ↔ value.Denotes message := by
  rw [← Value.message?_eq_some_iff]
  cases h with
  | @mk before bytes after hbefore hvalue hafter =>
      have hmessage : Yields (readMessage kind (before ++ (bytes ++ after)))
          (value.message? kind) after :=
        readMessage_of_spells kind hvalue (hvalue.skipSpace_append hbefore)
      cases hresult : value.message? kind with
      | some found =>
          rw [hresult] at hmessage
          have hread : readMessage kind (before ++ (bytes ++ after)) = .ok (found, after) :=
            hmessage
          simp only [read, readDocument, hread, skipSpace_of_isBlank hafter, Except.ok.injEq,
            Option.some_inj]
      | none =>
          rw [hresult] at hmessage
          obtain ⟨failure, hfailure⟩ := hmessage
          simp only [read, readDocument, hfailure, reduceCtorEq]

end Json

namespace Document

open Json (SpellsDocument Spells SpellsChars SpellsChar SpellsHex IsBlank isBlank_nil Value)

/-- Decoding JSON logs nothing, and its errors are those of the reader. -/
theorem decodeTraced_json (kind : Kind) (origin : String) (bytes : List UInt8) :
    decodeTraced kind .json origin bytes =
      ([], (Json.read kind bytes).mapError (Error.json kind)) := by
  simp only [decodeTraced]
  cases Json.read kind bytes <;> rfl

/-- **Reading JSON depends on the value that is spelled, and on nothing else.** A document that
spells a value is decoded to the message that the value denotes, whichever of its spellings the
document is. Which values denote a message does not depend on the spelling either: objects where
the name of each field occurs at most once, with an array of strings, and arrays of at most as
many arrays of strings as there are fields. All others are errors.

Of an object, only the members count whose keys are names of fields, and their order does not:
two documents of objects that have the same such members are decoded alike, whatever other
members each of them has. -/
theorem decode_spelling {value : Value} {bytes : List UInt8}
    (h : SpellsDocument value bytes) (kind : Kind) (origin : String) :
    (∀ message : Message kind,
        (decodeTraced kind .json origin bytes).2 = .ok message ↔ value.Denotes message) ∧
      ((∃ message, (decodeTraced kind .json origin bytes).2 = .ok message) ↔
        value.IsMessage kind) ∧
      (¬ value.IsMessage kind →
        ∃ source, (decodeTraced kind .json origin bytes).2 = .error (.json kind source)) ∧
      ∀ {members others : List (String × Value)} {other : List UInt8},
        value = .object members → SpellsDocument (.object others) other →
        (Value.knownMembers kind members).Perm (Value.knownMembers kind others) →
        ∀ message : Message kind,
          (decodeTraced kind .json origin bytes).2 = .ok message ↔
            (decodeTraced kind .json origin other).2 = .ok message := by
  have hok {value : Value} {bytes : List UInt8} (h : SpellsDocument value bytes)
      (message : Message kind) :
      (decodeTraced kind .json origin bytes).2 = .ok message ↔ value.Denotes message := by
    rw [decodeTraced_json, mapError_eq_ok_iff, Json.read_eq_ok_iff h]
  refine ⟨hok h, ?_, fun hnone => ?_, ?_⟩
  · rw [← Json.Value.exists_denotes_iff]
    exact exists_congr (hok h)
  · rw [decodeTraced_json]
    cases hresult : Json.read kind bytes with
    | ok found =>
        have hdenotes := (Json.read_eq_ok_iff h).mp hresult
        exact absurd (Json.Value.exists_denotes_iff.mp ⟨found, hdenotes⟩) hnone
    | error source => exact ⟨source, rfl⟩
  · rintro members others other rfl hother hperm message
    rw [hok h, hok hother]
    exact Value.denotes_object_iff_of_perm hperm

/-- A member that is skipped, white space, an escape in a key and a pair of surrogates in a
value. -/
theorem decode_spelling_escaped :
    ∃ bytes : List UInt8,
      bytes = [0x20, 0x7B, 0x22, 0x78, 0x22, 0x3A, 0x6E, 0x75, 0x6C, 0x6C, 0x20, 0x2C,
        0x22, 0x74, 0x5C, 0x75, 0x30, 0x30, 0x36, 0x31, 0x67, 0x22, 0x3A, 0x5B,
        0x22, 0x5C, 0x75, 0x44, 0x38, 0x33, 0x44, 0x5C, 0x75, 0x64, 0x65, 0x30, 0x30, 0x22,
        0x5D, 0x7D] ∧
      SpellsDocument (.object [("x", .null), ("tag", .array [.string "😀"])]) bytes ∧
        (decodeTraced .model .json "stdin" bytes).2 = .ok ⟨[], ["😀"]⟩ := by
  have hspace : IsBlank [0x20] := by simp [IsBlank, Json.isSpace]
  have hunknown : SpellsChars ['x'] (Utf8.encodeChar 'x' ++ []) :=
    .cons (.raw (by decide) (by decide) (by decide)) .nil
  have hhex : SpellsHex (0 * 0x1000 + 0 * 0x100 + 6 * 0x10 + 1) [0x30, 0x30, 0x36, 0x31] :=
    .mk (.inl ⟨by decide, rfl⟩) (.inl ⟨by decide, rfl⟩) (.inl ⟨by decide, rfl⟩)
      (.inl ⟨by decide, rfl⟩)
  have hletter : SpellsChar 'a' [0x5C, 0x75, 0x30, 0x30, 0x36, 0x31] := .codePoint hhex
  have hkey : SpellsChars ['t', 'a', 'g'] (Utf8.encodeChar 't' ++
      ([0x5C, 0x75, 0x30, 0x30, 0x36, 0x31] ++ (Utf8.encodeChar 'g' ++ []))) :=
    .cons (.raw (by decide) (by decide) (by decide))
      (.cons hletter (.cons (.raw (by decide) (by decide) (by decide)) .nil))
  have hleading : SpellsHex (13 * 0x1000 + 8 * 0x100 + 3 * 0x10 + 13)
      [0x44, 0x38, 0x33, 0x44] :=
    .mk (.inr ⟨by decide, by decide, .inl rfl⟩) (.inl ⟨by decide, rfl⟩)
      (.inl ⟨by decide, rfl⟩) (.inr ⟨by decide, by decide, .inl rfl⟩)
  have htrailing : SpellsHex (13 * 0x1000 + 14 * 0x100 + 0 * 0x10 + 0)
      [0x64, 0x65, 0x30, 0x30] :=
    .mk (.inr ⟨by decide, by decide, .inr rfl⟩) (.inr ⟨by decide, by decide, .inr rfl⟩)
      (.inl ⟨by decide, rfl⟩) (.inl ⟨by decide, rfl⟩)
  have hpair : SpellsChars ['😀'] (0x5C :: 0x75 :: ([0x44, 0x38, 0x33, 0x44] ++
      0x5C :: 0x75 :: [0x64, 0x65, 0x30, 0x30]) ++ []) :=
    .cons (.surrogates (by decide) hleading htrailing) .nil
  have hlist : Spells (.array [.string "😀"]) _ :=
    .array (.last isBlank_nil (.string (.mk hpair)) isBlank_nil)
  have hspelling : SpellsDocument (.object [("x", .null), ("tag", .array [.string "😀"])]) _ :=
    .mk hspace (.object (.cons isBlank_nil (.mk hunknown) isBlank_nil isBlank_nil .null hspace
      (.last isBlank_nil (.mk hkey) isBlank_nil isBlank_nil hlist isBlank_nil))) isBlank_nil
  refine ⟨_, rfl, hspelling, ((decode_spelling hspelling .model "stdin").1 _).mpr ?_⟩
  intro field hfield
  simp only [Kind.fields, List.mem_cons, List.not_mem_nil, or_false] at hfield
  rcases hfield with rfl | rfl
  · exact .absent
  · exact show Value.Gives [Value.ofStrings ["😀"]] ["😀"] from .present

end Document

end InferenceConfig
