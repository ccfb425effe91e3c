import InferenceConfig.Proofs.Text.Escape
import Mathlib.Algebra.Group.Nat.Even
import Mathlib.Data.List.TakeWhile

/-!
# Backslashes in Pairs

Two readers go over the backslashes of a body. The reader of a line only looks for the closing
quote, and a backslash keeps it from taking the next character for one. The reader of a value
takes a backslash and the next character for an escape. Both pair the backslashes from the left,
so the body that the first one finds is never cut within an escape of the second one: however many
backslashes and quotes it holds, it ends with an even number of backslashes.

What is wrong with such a body can be seen from its pairs alone. It has no value exactly if a pair
is not supported, and the first pair that is not supported is the one that is reported.

## Main definitions

* `Escape.supported` — the characters that may stand behind a backslash;
* `Escape.pairs` — the characters that stand behind the backslashes of a text;
* `Escape.closingRun` — the number of backslashes at the end of a text.

## Main results

* `Escape.even_closingRun` — a body does not end within an escape;
* `Escape.decode_ne_dangling` — and it is never refused for that;
* `Escape.exists_decode_eq_error_iff`, `Escape.decode_eq_error_iff_find?` — which bodies have no
  value, and for which pair they are refused.
-/

namespace InferenceConfig

namespace Escape

/-- The characters that may stand behind a backslash. -/
def supported : List Char :=
  ['\\', '\x22', '\x27', 'n', 'r', 't']

/-- The characters that stand behind the backslashes of a text, read from the left. A backslash
takes the next character along, so that one begins no pair of its own. -/
def pairs : (text : List Char) → List Char
  | [] => []
  | c :: rest =>
    if c = '\\' then
      match rest with
      | [] => []
      | letter :: rest => letter :: pairs rest
    else pairs rest

/-- The number of backslashes at the end of a text. -/
def closingRun (text : List Char) : Nat :=
  (text.reverse.takeWhile fun c => c = '\\').length

variable {quote letter : Char} {body value : List Char}

/-! ### The end of a body -/

/-- What stands before a text counts only if the text consists of backslashes. -/
theorem closingRun_append (first text : List Char) :
    closingRun (first ++ text) = closingRun text ∨
      closingRun (first ++ text) = closingRun text + closingRun first := by
  simp only [closingRun, List.reverse_append, List.takeWhile_append]
  split
  · next hall => exact .inr (by rw [List.length_append, hall])
  · exact .inl rfl

/-- A body ends with an even number of backslashes. Induction on the body: what comes before it
is a character that is no backslash, or a pair of which none or both are. -/
theorem even_closingRun (h : Line.IsBody quote body) : Even (closingRun body) := by
  induction h with
  | nil => exact Nat.even_iff.mpr rfl
  | @plain c body _ hbackslash _ ih =>
      have hnone : closingRun [c] = 0 := by simp [closingRun, hbackslash]
      rcases closingRun_append [c] body with hrun | hrun
      · rwa [← List.singleton_append, hrun]
      · rwa [← List.singleton_append, hrun, hnone]
  | @escape mark body _ ih =>
      have hpair : Even (closingRun ['\\', mark]) := by
        rw [Nat.even_iff]
        by_cases hmark : mark = '\\' <;> simp [closingRun, hmark]
      rcases closingRun_append ['\\', mark] body with hrun | hrun
      · exact hrun ▸ ih
      · exact hrun ▸ ih.add hpair

/-! ### Pairs -/

/-- A character that is no backslash begins no pair. -/
theorem pairs_plain {c : Char} (h : c ≠ '\\') (rest : List Char) :
    pairs (c :: rest) = pairs rest := by
  rw [pairs.eq_def]
  simp only [if_neg h]

/-- A backslash and the next character are a pair. -/
theorem pairs_escape (letter : Char) (rest : List Char) :
    pairs ('\\' :: letter :: rest) = letter :: pairs rest := by
  rw [pairs.eq_def]
  simp only [if_true]

/-- Behind a body, pairs are read as if it were not there. -/
theorem pairs_append (h : Line.IsBody quote body) (rest : List Char) :
    pairs (body ++ rest) = pairs body ++ pairs rest := by
  induction h with
  | nil => rfl
  | plain _ hbackslash _ ih =>
      rw [List.cons_append, pairs_plain hbackslash, pairs_plain hbackslash, ih]
  | escape _ ih =>
      rw [List.cons_append, List.cons_append, pairs_escape, pairs_escape, ih, List.cons_append]

/-- The letters that are supported are those of the table. -/
theorem mem_supported_iff : letter ∈ supported ↔ ∃ c, (letter, c) ∈ table := by
  have hsupported : supported = table.map Prod.fst := rfl
  simp [hsupported]

/-- All pairs of a body that spells a value are supported. -/
theorem Spells.mem_supported (h : Spells quote body value) :
    ∀ letter ∈ pairs body, letter ∈ supported := by
  induction h with
  | nil => exact List.forall_mem_nil _
  | plain _ hbackslash _ ih => rwa [pairs_plain hbackslash]
  | escape hpair _ ih =>
      rw [pairs_escape, List.forall_mem_cons]
      exact ⟨mem_supported_iff.mpr ⟨_, hpair⟩, ih⟩

/-! ### The pair that is reported -/

/-- A body that spells a value has no pair with a letter that is not supported. -/
theorem Spells.find?_pairs (h : Spells quote body value) :
    (pairs body).find? (fun letter => letter ∉ supported) = none := by
  simpa using h.mem_supported

/-- The first pair with a letter that is not supported is found. -/
theorem FirstUnsupported.find?_pairs (h : FirstUnsupported quote body letter) :
    (pairs body).find? (fun letter => letter ∉ supported) = some letter := by
  obtain ⟨before, value, after, rfl, hbefore, hletter⟩ := h
  have hunsupported : letter ∉ supported := by
    rw [mem_supported_iff, not_exists]
    exact hletter
  rw [pairs_append hbefore.isBody, pairs_escape, List.find?_append, hbefore.find?_pairs,
    Option.none_or, List.find?_cons_of_pos (by simpa using hunsupported)]

/-- A body is refused for the first of its pairs that is not supported, and for nothing else. -/
theorem decode_eq_error_iff_find? (h : Line.IsBody quote body) {fault : Fault} :
    decode body = .error fault ↔
      ∃ letter, (pairs body).find? (fun letter => letter ∉ supported) = some letter ∧
        fault = .unsupported letter := by
  rw [decode_eq_error_iff h]
  constructor
  · rintro ⟨letter, hletter, rfl⟩
    exact ⟨letter, hletter.find?_pairs, rfl⟩
  · rintro ⟨letter, hfind, rfl⟩
    rcases spells_or_firstUnsupported h with ⟨value, hvalue⟩ | ⟨first, hfirst⟩
    · rw [hvalue.find?_pairs] at hfind
      simp at hfind
    · rw [hfirst.find?_pairs, Option.some.injEq] at hfind
      exact ⟨letter, hfind ▸ hfirst, rfl⟩

/-- A body has no value exactly if one of its pairs is not supported. -/
theorem exists_decode_eq_error_iff (h : Line.IsBody quote body) :
    (∃ fault, decode body = .error fault) ↔ ∃ letter ∈ pairs body, letter ∉ supported := by
  have hfind : ((pairs body).find? fun letter => letter ∉ supported).isSome = true ↔
      ∃ letter ∈ pairs body, letter ∉ supported := by
    simp
  rw [← hfind, Option.isSome_iff_exists]
  constructor
  · rintro ⟨fault, hfault⟩
    obtain ⟨letter, hletter, -⟩ := (decode_eq_error_iff_find? h).mp hfault
    exact ⟨letter, hletter⟩
  · rintro ⟨letter, hletter⟩
    exact ⟨_, (decode_eq_error_iff_find? h).mpr ⟨letter, hletter, rfl⟩⟩

/-- No body is refused for a backslash that escapes nothing. -/
theorem decode_ne_dangling (h : Line.IsBody quote body) : decode body ≠ .error .dangling := by
  intro hdecode
  obtain ⟨letter, -, hfault⟩ := (decode_eq_error_iff_find? h).mp hdecode
  simp at hfault

end Escape

end InferenceConfig
