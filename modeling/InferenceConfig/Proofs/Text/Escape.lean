import InferenceConfig.Proofs.Text.Line
import InferenceConfig.Text.Escape

/-!
# The Values That Bodies Spell

A body may hold pairs of a backslash and any character, but only six of them are supported.
A body whose pairs are all supported spells exactly one value, and it is read as that value.
Any other body is refused, and the report names the first pair that is not supported. No
body ends with a backslash that escapes nothing.

## Main definitions

* `Escape.table` — the supported escapes;
* `Escape.Spells` — the value that a body spells;
* `Escape.FirstUnsupported` — the first pair of a body that is not supported.

## Main results

* `Escape.spells_or_firstUnsupported` — every body spells a value or has a first pair that is
  not supported;
* `Escape.decode_eq_ok_iff`, `Escape.decode_eq_error_iff` — which bodies are read, and for
  which character the others are refused.
-/

namespace InferenceConfig

namespace Escape

/-- The supported escapes: the character behind the backslash and the one that both of them
stand for. -/
def table : List (Char × Char) :=
  [('\\', '\\'), ('\x22', '\x22'), ('\x27', '\x27'), ('n', '\n'), ('r', '\r'), ('t', '\t')]

/-- The body, which stands between two of the given quotes, spells the value. -/
inductive Spells (quote : Char) : (body value : List Char) → Prop
  | nil : Spells quote [] []
  | plain {c : Char} {body value : List Char} :
      c ≠ quote → c ≠ '\\' → Spells quote body value →
      Spells quote (c :: body) (c :: value)
  | escape {letter c : Char} {body value : List Char} :
      (letter, c) ∈ table → Spells quote body value →
      Spells quote ('\\' :: letter :: body) (c :: value)

/-- The first pair of the body that is no supported escape is a backslash and this
character. -/
def FirstUnsupported (quote : Char) (body : List Char) (letter : Char) : Prop :=
  ∃ before value after, body = before ++ '\\' :: letter :: after ∧
    Spells quote before value ∧ ∀ c, (letter, c) ∉ table

variable {quote : Char} {body value : List Char}

/-! ### The table -/

/-- A character stands for what the table says. -/
theorem decodeChar?_eq_some_iff {letter c : Char} :
    decodeChar? letter = some c ↔ (letter, c) ∈ table := by
  by_cases hletter : letter ∈ table.map Prod.fst
  · obtain ⟨entry, hentry, rfl⟩ := List.mem_map.mp hletter
    have hfound : ∀ entry ∈ table, decodeChar? entry.1 = some entry.2 := by decide
    have hunique : ∀ entry ∈ table, ∀ other ∈ table, entry.1 = other.1 → entry = other := by
      decide
    rw [hfound entry hentry, Option.some.injEq]
    constructor
    · rintro rfl
      exact hentry
    · intro hmem
      exact congrArg Prod.snd (hunique entry hentry _ hmem rfl)
  · have hnone : decodeChar? letter = none := by
      simp only [table, List.map_cons, List.map_nil, List.mem_cons, List.not_mem_nil, or_false,
        not_or] at hletter
      simp [decodeChar?, hletter]
    rw [hnone]
    constructor
    · intro hsome
      exact absurd hsome.symm (Option.some_ne_none c)
    · intro hmem
      exact absurd (List.mem_map_of_mem hmem) hletter

/-- A character stands for nothing exactly if it is not in the table. -/
theorem decodeChar?_eq_none_iff {letter : Char} :
    decodeChar? letter = none ↔ ∀ c, (letter, c) ∉ table := by
  rw [Option.eq_none_iff_forall_ne_some]
  exact forall_congr' fun c => not_congr decodeChar?_eq_some_iff

/-! ### Reading one character -/

/-- A character that is no backslash is kept. -/
theorem decode_plain {c : Char} (h : c ≠ '\\') (body : List Char) :
    decode (c :: body) = (decode body).map (c :: ·) := by
  rw [decode.eq_def]
  simp only [if_neg h]
  cases decode body <;> rfl

/-- A pair of the table becomes the character that it stands for. -/
theorem decode_escape {letter c : Char} (h : (letter, c) ∈ table) (body : List Char) :
    decode ('\\' :: letter :: body) = (decode body).map (c :: ·) := by
  rw [decode.eq_def]
  simp only [if_true, decodeChar?_eq_some_iff.mpr h]
  cases decode body <;> rfl

/-- A pair that is not in the table is an error, whatever follows it. -/
theorem decode_unsupported {letter : Char} (h : ∀ c, (letter, c) ∉ table)
    (body : List Char) :
    decode ('\\' :: letter :: body) = .error (.unsupported letter) := by
  rw [decode.eq_def]
  simp only [if_true, decodeChar?_eq_none_iff.mpr h]

/-! ### Reading a body -/

/-- What spells a value is a body. -/
theorem Spells.isBody (h : Spells quote body value) : Line.IsBody quote body := by
  induction h with
  | nil => exact .nil
  | plain hquote hbackslash _ ih => exact .plain hquote hbackslash ih
  | escape _ _ ih => exact .escape ih

/-- What spells a value is read as that value, whatever follows. -/
theorem Spells.decode_append (h : Spells quote body value) (rest : List Char) :
    decode (body ++ rest) = (decode rest).map (value ++ ·) := by
  induction h with
  | nil => cases hrest : decode rest <;> simp [Except.map, hrest]
  | plain _ hbackslash _ ih =>
      rw [List.cons_append, decode_plain hbackslash, ih]
      cases decode rest <;> rfl
  | escape hpair _ ih =>
      rw [List.cons_append, List.cons_append, decode_escape hpair, ih]
      cases decode rest <;> rfl

/-- A body is decoded to the value that it spells. Induction on the spelling. -/
theorem Spells.decode (h : Spells quote body value) : decode body = .ok value := by
  have happend := h.decode_append []
  rw [List.append_nil] at happend
  rw [happend]
  exact congrArg Except.ok (List.append_nil value)

/-- A body is refused for its first pair that is not in the table. Induction on what comes before
it. -/
theorem FirstUnsupported.decode {letter : Char} (h : FirstUnsupported quote body letter) :
    decode body = .error (.unsupported letter) := by
  obtain ⟨before, value, after, rfl, hbefore, hletter⟩ := h
  rw [hbefore.decode_append, decode_unsupported hletter]
  rfl

/-- Every body spells a value, or it has a first pair that is not supported. Induction on the
body: what comes before the first such pair is one character longer. -/
theorem spells_or_firstUnsupported (h : Line.IsBody quote body) :
    (∃ value, Spells quote body value) ∨ ∃ letter, FirstUnsupported quote body letter := by
  induction h with
  | nil => exact .inl ⟨[], .nil⟩
  | @plain c body hquote hbackslash _ ih =>
      rcases ih with ⟨value, hvalue⟩ | ⟨letter, before, value, after, rfl, hbefore, hletter⟩
      · exact .inl ⟨c :: value, .plain hquote hbackslash hvalue⟩
      · exact .inr ⟨letter, c :: before, c :: value, after, rfl,
          .plain hquote hbackslash hbefore, hletter⟩
  | @escape mark body _ ih =>
      cases hmark : decodeChar? mark with
      | none =>
          exact .inr ⟨mark, [], [], body, rfl, .nil, decodeChar?_eq_none_iff.mp hmark⟩
      | some c =>
          have hpair := decodeChar?_eq_some_iff.mp hmark
          rcases ih with
            ⟨value, hvalue⟩ | ⟨letter, before, value, after, rfl, hbefore, hletter⟩
          · exact .inl ⟨c :: value, .escape hpair hvalue⟩
          · exact .inr ⟨letter, '\\' :: mark :: before, c :: value, after, rfl,
              .escape hpair hbefore, hletter⟩

/-- A body is read as the value that it spells. -/
theorem decode_eq_ok_iff (h : Line.IsBody quote body) :
    decode body = .ok value ↔ Spells quote body value := by
  refine ⟨fun hdecode => ?_, Spells.decode⟩
  rcases spells_or_firstUnsupported h with ⟨spelt, hspelt⟩ | ⟨letter, hletter⟩
  · rw [hspelt.decode, Except.ok.injEq] at hdecode
    exact hdecode ▸ hspelt
  · simp [hletter.decode] at hdecode

/-- A body is refused for its first pair that is not supported, and for nothing else. -/
theorem decode_eq_error_iff (h : Line.IsBody quote body) {fault : Fault} :
    decode body = .error fault ↔
      ∃ letter, FirstUnsupported quote body letter ∧ fault = .unsupported letter := by
  constructor
  · intro hdecode
    rcases spells_or_firstUnsupported h with ⟨value, hvalue⟩ | ⟨letter, hletter⟩
    · simp [hvalue.decode] at hdecode
    · rw [hletter.decode, Except.error.injEq] at hdecode
      exact ⟨letter, hletter, hdecode.symm⟩
  · rintro ⟨letter, hletter, rfl⟩
    exact hletter.decode

end Escape

end InferenceConfig
