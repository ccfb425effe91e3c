import InferenceConfig.Document.Format
import InferenceConfig.Proofs.Document.Location
import InferenceConfig.Proofs.Unicode.Utf8
import Mathlib.Data.List.Forall2

/-!
# The Formats of Files

Unless a format is given, the last part of a path decides it: if this is a stem, a dot and an
extension, and the extension belongs to a format up to the case of its ASCII letters, then the file
has that format. Nothing else of the path has any influence: not its directories, not what the
stem is, and not the slashes and single dots at its end. None of them needs to be UTF-8.

## Main definitions

* `Format.table` — the extensions of all formats;
* `Format.SameLetter`, `Format.EqUpToCase` — equality up to the case of ASCII letters;
* `Format.IsNamedBy` — the last part of a path names a format.

## Main results

* `Format.ofExtension?_eq_some_iff` — the format of an extension;
* `Format.ofLocation?_eq_some_iff` — the format of a file;
* `Format.ofLocation?_of_endsIn` — the extension decides the format;
* `Format.ofLocation_reads_extension` — all that the format of a file depends on.
-/

namespace InferenceConfig

namespace Format

/-- The extensions of all formats. -/
def table : List (Format × String) :=
  [(.json, "json"), (.text, "pbtxt"), (.text, "textproto"), (.text, "txt"), (.binary, "pb"),
    (.binary, "bin")]

/-- The bytes are equal, or the two cases of one ASCII letter. -/
def SameLetter (byte other : UInt8) : Prop :=
  byte = other ∨ (0x41 ≤ byte ∧ byte ≤ 0x5A ∧ other = byte + 0x20) ∨
    (0x41 ≤ other ∧ other ≤ 0x5A ∧ byte = other + 0x20)

/-- The bytes are equal up to the case of ASCII letters. -/
def EqUpToCase (bytes other : List UInt8) : Prop :=
  List.Forall₂ SameLetter bytes other

/-- The last part of the path is a stem that is not empty, a dot and an extension of the format, in
upper or lower case. -/
def IsNamedBy (format : Format) (location : Location) : Prop :=
  ∃ stem ext known, location.EndsIn (stem ++ 0x2E :: ext) ∧
    stem ++ 0x2E :: ext ≠ Location.above ∧ stem ≠ [] ∧ 0x2E ∉ ext ∧
    (format, known) ∈ table ∧ EqUpToCase ext (Utf8.encode known.toList)

variable {format : Format} {location : Location} {known : String}
  {directory stem ext ext' trail : List UInt8}

/-! ### Upper and lower case -/

/-- A letter in lower case is no letter in upper case. -/
theorem not_upper_add {byte : UInt8} (h : 0x41 ≤ byte ∧ byte ≤ 0x5A) :
    ¬ (0x41 ≤ byte + 0x20 ∧ byte + 0x20 ≤ 0x5A) := by
  grind

/-- Bytes are the same in lower case exactly if they are equal or one letter in its two cases. -/
theorem lowerByte_eq_iff {byte other : UInt8} :
    lowerByte byte = lowerByte other ↔ SameLetter byte other := by
  rw [lowerByte, lowerByte, SameLetter]
  by_cases hbyte : 0x41 ≤ byte ∧ byte ≤ 0x5A
  · rw [if_pos hbyte]
    by_cases hother : 0x41 ≤ other ∧ other ≤ 0x5A
    · rw [if_pos hother]
      constructor
      · exact fun h => .inl ((UInt8.add_left_inj _).mp h)
      · rintro (rfl | ⟨-, -, rfl⟩ | ⟨-, -, rfl⟩)
        · rfl
        · exact absurd hother (not_upper_add hbyte)
        · exact absurd hbyte (not_upper_add hother)
    · rw [if_neg hother]
      constructor
      · exact fun h => .inr (.inl ⟨hbyte.1, hbyte.2, h.symm⟩)
      · rintro (rfl | ⟨-, -, rfl⟩ | ⟨hlow, hhigh, -⟩)
        · exact absurd hbyte hother
        · rfl
        · exact absurd ⟨hlow, hhigh⟩ hother
  · rw [if_neg hbyte]
    by_cases hother : 0x41 ≤ other ∧ other ≤ 0x5A
    · rw [if_pos hother]
      constructor
      · exact fun h => .inr (.inr ⟨hother.1, hother.2, h⟩)
      · rintro (rfl | ⟨hlow, hhigh, -⟩ | ⟨-, -, rfl⟩)
        · exact absurd hother hbyte
        · exact absurd ⟨hlow, hhigh⟩ hbyte
        · rfl
    · rw [if_neg hother]
      constructor
      · exact .inl
      · rintro (rfl | ⟨hlow, hhigh, -⟩ | ⟨hlow, hhigh, -⟩)
        · rfl
        · exact absurd ⟨hlow, hhigh⟩ hbyte
        · exact absurd ⟨hlow, hhigh⟩ hother

/-- Texts are the same in lower case exactly if they are equal up to case. -/
theorem map_lowerByte_eq_iff : ext.map lowerByte = ext'.map lowerByte ↔ EqUpToCase ext ext' := by
  rw [← List.forall₂_eq_eq_eq, List.forall₂_map_left_iff, List.forall₂_map_right_iff, EqUpToCase]
  simp only [lowerByte_eq_iff]

/-- A byte before the letters stays where it is. -/
theorem EqUpToCase.mem_iff (h : EqUpToCase ext ext') {byte : UInt8} (hbyte : byte < 0x41) :
    byte ∈ ext ↔ byte ∈ ext' := by
  have hmem (bytes : List UInt8) : byte ∈ bytes ↔ byte ∈ bytes.map lowerByte := by
    have hlower (other : UInt8) : lowerByte other = byte ↔ other = byte := by
      rw [lowerByte]
      by_cases hother : 0x41 ≤ other ∧ other ≤ 0x5A
      · -- Neither the letter nor its lower case is a byte before the letters.
        have hne : other + 0x20 ≠ byte ∧ other ≠ byte := by grind
        rw [if_pos hother]
        exact iff_of_false hne.1 hne.2
      · rw [if_neg hother]
    simp only [List.mem_map, hlower, exists_eq_right]
  rw [hmem ext, hmem ext', map_lowerByte_eq_iff.mpr h]

/-! ### The format of an extension -/

/-- The table lists the extensions of each format. -/
theorem mem_table_iff : (format, known) ∈ table ↔ known ∈ format.extensions := by
  cases format <;> simp [table, extensions]

/-- The extensions in the table are in lower case. -/
theorem map_lowerByte_of_mem_table (h : (format, known) ∈ table) :
    (Utf8.encode known.toList).map lowerByte = Utf8.encode known.toList := by
  have hall : ∀ entry ∈ table,
      (Utf8.encode entry.2.toList).map lowerByte = Utf8.encode entry.2.toList := by
    decide +kernel
  exact hall _ h

/-- An extension belongs to one format only. -/
theorem eq_of_mem_table {other : Format} (h : (format, known) ∈ table)
    (hother : (other, known) ∈ table) : format = other := by
  have hall : ∀ entry ∈ table, ∀ other ∈ table, entry.2 = other.2 → entry.1 = other.1 := by
    decide
  exact hall _ h _ hother rfl

/-- The case of an extension does not matter. -/
theorem ofExtension?_congr (h : EqUpToCase ext ext') : ofExtension? ext = ofExtension? ext' := by
  rw [ofExtension?, ofExtension?, map_lowerByte_eq_iff.mpr h]

/-- A format has an extension exactly if the table says so, up to the case of its letters. -/
theorem any_extensions_iff :
    (format.extensions.any fun known => Utf8.encode known.toList == ext.map lowerByte) = true ↔
      ∃ known, (format, known) ∈ table ∧ EqUpToCase ext (Utf8.encode known.toList) := by
  simp only [List.any_eq_true, beq_iff_eq, ← mem_table_iff]
  refine exists_congr fun known => and_congr_right fun hmem => ?_
  rw [← map_lowerByte_eq_iff, map_lowerByte_of_mem_table hmem, eq_comm]

/-- Equal extensions belong to the same format, whatever their case is. -/
theorem eq_of_eqUpToCase {other : Format} {known' : String} (h : (format, known) ∈ table)
    (hother : (other, known') ∈ table) (hext : EqUpToCase ext (Utf8.encode known.toList))
    (hext' : EqUpToCase ext (Utf8.encode known'.toList)) : format = other := by
  rw [← map_lowerByte_eq_iff, map_lowerByte_of_mem_table h] at hext
  rw [← map_lowerByte_eq_iff, map_lowerByte_of_mem_table hother] at hext'
  have hknown : known = known' :=
    String.toList_inj.mp (Utf8.encode_injective (hext.symm.trans hext'))
  exact eq_of_mem_table h (hknown ▸ hother)

/-- An extension stands for a format exactly if the table has it, up to the case of its letters. -/
theorem ofExtension?_eq_some_iff :
    ofExtension? ext = some format ↔
      ∃ known, (format, known) ∈ table ∧ EqUpToCase ext (Utf8.encode known.toList) := by
  rw [ofExtension?]
  constructor
  · intro h
    have hmatches := List.find?_some h
    exact any_extensions_iff.mp hmatches
  · rintro ⟨known, hmem, hext⟩
    obtain ⟨found, hfound⟩ : ∃ found, all.find? (fun format =>
        format.extensions.any fun known => Utf8.encode known.toList == ext.map lowerByte) =
          some found := by
      rw [← Option.isSome_iff_exists, List.find?_isSome]
      exact ⟨format, by cases format <;> decide, any_extensions_iff.mpr ⟨known, hmem, hext⟩⟩
    have hmatches := List.find?_some hfound
    obtain ⟨known', hmem', hext'⟩ := any_extensions_iff.mp hmatches
    rw [hfound, eq_of_eqUpToCase hmem hmem' hext hext']

/-! ### The format of a file -/

/-- A file has the format that the last part of its path names. -/
theorem ofLocation?_eq_some_iff :
    ofLocation? location = some format ↔ IsNamedBy format location := by
  have hext : ofLocation? location = some format ↔
      ∃ ext, location.extension? = some ext ∧ ofExtension? ext = some format := by
    rw [ofLocation?]
    cases location.extension? <;> simp
  rw [hext]
  simp only [Location.extension?_eq_some_iff, ofExtension?_eq_some_iff]
  constructor
  · rintro ⟨ext, ⟨stem, hends, habove, hstem, hdot⟩, known, hknown⟩
    exact ⟨stem, ext, known, hends, habove, hstem, hdot, hknown⟩
  · rintro ⟨stem, ext, known, hends, habove, hstem, hdot, hknown⟩
    exact ⟨ext, ⟨stem, hends, habove, hstem, hdot⟩, known, hknown⟩

/-- The format depends on the last part of the path. -/
theorem ofLocation?_congr {other : Location} (h : location.fileName? = other.fileName?) :
    ofLocation? location = ofLocation? other := by
  rw [ofLocation?, ofLocation?, Location.extension?_congr h]

/-- If the last part of a path is a stem, a dot and an extension, then the extension alone decides
the format. -/
theorem ofLocation?_of_endsIn (h : location.EndsIn (stem ++ 0x2E :: ext)) (hstem : stem ≠ [])
    (hext : 0x2E ∉ ext) : ofLocation? location = ofExtension? ext := by
  rw [ofLocation?, h.extension? hstem hext]
  by_cases habove : stem ++ 0x2E :: ext = Location.above
  · -- Two dots name no file, and the empty extension behind them stands for no format.
    rw [if_pos habove, Location.eq_nil_of_append_eq_above hstem habove]
    decide +kernel
  · rw [if_neg habove]

/-- The extension decides the format, whatever the directory and the stem are and whatever may
follow. -/
theorem ofLocation?_append (hdirectory : Location.IsDirectory directory) (hstem : 0x2F ∉ stem)
    (hne : stem ≠ []) (hslash : 0x2F ∉ ext) (hdot : 0x2E ∉ ext)
    (htrail : Location.IsTrail trail) :
    ofLocation? ⟨directory ++ (stem ++ 0x2E :: ext ++ trail)⟩ = ofExtension? ext :=
  ofLocation?_of_endsIn
    ⟨directory, trail, rfl, hdirectory, Location.isPart_append hstem hne hslash, htrail⟩ hne hdot

/-- There is no format exactly if none is given and the path names none. -/
theorem resolve?_eq_none_iff {explicit : Option Format} :
    resolve? explicit location = none ↔
      explicit = none ∧ ∀ format, ¬ IsNamedBy format location := by
  simp only [← ofLocation?_eq_some_iff, ← Option.eq_none_iff_forall_ne_some]
  cases explicit <;> simp [resolve?]

/-- **The format of a file is read off its extension.** A path stands for a format exactly if its
last part is a stem that is not empty, a dot and an extension of the format, in upper or lower
case; two dots are no such part. So it does not matter which directory the part stands behind,
what the case of the extension and what the stem is, or whether slashes and single dots follow.
No format is found exactly if none is given and the last part names none. -/
theorem ofLocation_reads_extension :
    (∀ location format, ofLocation? location = some format ↔ IsNamedBy format location) ∧
    (∀ directory directory' name trail, Location.IsDirectory directory →
      Location.IsDirectory directory' → Location.IsPart name → Location.IsTrail trail →
      ofLocation? ⟨directory ++ (name ++ trail)⟩ = ofLocation? ⟨directory' ++ (name ++ trail)⟩) ∧
    (∀ directory stem ext ext' trail, Location.IsDirectory directory → 0x2F ∉ stem → stem ≠ [] →
      0x2F ∉ ext → 0x2E ∉ ext → EqUpToCase ext ext' → Location.IsTrail trail →
      ofLocation? ⟨directory ++ (stem ++ 0x2E :: ext ++ trail)⟩ =
        ofLocation? ⟨directory ++ (stem ++ 0x2E :: ext' ++ trail)⟩) ∧
    (∀ directory stem stem' ext trail, Location.IsDirectory directory → 0x2F ∉ stem → stem ≠ [] →
      0x2F ∉ stem' → stem' ≠ [] → 0x2F ∉ ext → 0x2E ∉ ext → Location.IsTrail trail →
      ofLocation? ⟨directory ++ (stem ++ 0x2E :: ext ++ trail)⟩ =
        ofLocation? ⟨directory ++ (stem' ++ 0x2E :: ext ++ trail)⟩) ∧
    (∀ location trail, Location.IsTrail trail →
      ofLocation? ⟨location.bytes ++ trail⟩ = ofLocation? location) ∧
    ∀ explicit location, resolve? explicit location = none ↔
      explicit = none ∧ ∀ format, ¬ IsNamedBy format location := by
  refine ⟨fun _ _ => ofLocation?_eq_some_iff, ?_, ?_, ?_, fun location trail htrail => ?_,
    fun _ _ => resolve?_eq_none_iff⟩
  · intro directory directory' name trail hdirectory hdirectory' hname htrail
    have hends : Location.EndsIn ⟨directory ++ (name ++ trail)⟩ name :=
      ⟨directory, trail, rfl, hdirectory, hname, htrail⟩
    have hends' : Location.EndsIn ⟨directory' ++ (name ++ trail)⟩ name :=
      ⟨directory', trail, rfl, hdirectory', hname, htrail⟩
    exact ofLocation?_congr (hends.fileName?.trans hends'.fileName?.symm)
  · intro directory stem ext ext' trail hdirectory hstem hne hslash hdot hcase htrail
    have hslash' : 0x2F ∉ ext' := by rwa [← hcase.mem_iff (by decide)]
    have hdot' : 0x2E ∉ ext' := by rwa [← hcase.mem_iff (by decide)]
    rw [ofLocation?_append hdirectory hstem hne hslash hdot htrail,
      ofLocation?_append hdirectory hstem hne hslash' hdot' htrail, ofExtension?_congr hcase]
  · intro directory stem stem' ext trail hdirectory hstem hne hstem' hne' hslash hdot htrail
    rw [ofLocation?_append hdirectory hstem hne hslash hdot htrail,
      ofLocation?_append hdirectory hstem' hne' hslash hdot htrail]
  · exact ofLocation?_congr (Location.fileName?_append_of_isTrail htrail location)

/-- A path whose directory and stem are not UTF-8, with an extension in mixed case, a dot in its
stem, and more behind its last part. Without the directory, in lower case, with a stem of a single
dot and with less behind it, it stands for the same format; a name that starts with its only dot
stands for none. -/
theorem ofLocation_reads_extension_mixedCase :
    IsNamedBy .json
      ⟨[0xFF, 0x2F] ++ ([0xE4, 0x2E, 0x62] ++ 0x2E :: [0x4A, 0x73, 0x4F, 0x6E] ++
        [0x2F, 0x2E, 0x2F])⟩ ∧
    ofLocation? ⟨[0xFF, 0x2F] ++ ([0xE4, 0x2E, 0x62] ++ 0x2E :: [0x4A, 0x73, 0x4F, 0x6E] ++
        [0x2F, 0x2E, 0x2F])⟩ =
      ofLocation? ⟨[] ++ ([0xE4, 0x2E, 0x62] ++ 0x2E :: [0x4A, 0x73, 0x4F, 0x6E] ++
        [0x2F, 0x2E, 0x2F])⟩ ∧
    ofLocation? ⟨[] ++ ([0xE4, 0x2E, 0x62] ++ 0x2E :: [0x4A, 0x73, 0x4F, 0x6E] ++
        [0x2F, 0x2E, 0x2F])⟩ =
      ofLocation? ⟨[] ++ ([0xE4, 0x2E, 0x62] ++ 0x2E :: [0x6A, 0x73, 0x6F, 0x6E] ++
        [0x2F, 0x2E, 0x2F])⟩ ∧
    ofLocation? ⟨[] ++ ([0xE4, 0x2E, 0x62] ++ 0x2E :: [0x6A, 0x73, 0x6F, 0x6E] ++
        [0x2F, 0x2E, 0x2F])⟩ =
      ofLocation? ⟨[] ++ ([0x2E] ++ 0x2E :: [0x6A, 0x73, 0x6F, 0x6E] ++ [0x2F, 0x2E, 0x2F])⟩ ∧
    ofLocation? ⟨[0x2E, 0x2E, 0x6A, 0x73, 0x6F, 0x6E] ++ [0x2F, 0x2E, 0x2F]⟩ =
      ofLocation? ⟨[0x2E, 0x2E, 0x6A, 0x73, 0x6F, 0x6E]⟩ ∧
    ∀ format, ¬ IsNamedBy format ⟨[0x2E, 0x6A, 0x73, 0x6F, 0x6E]⟩ := by
  obtain ⟨hnamed, hdirectory, hcase, hstem, htrail, hresolve⟩ := ofLocation_reads_extension
  have hbehind : Location.IsTrail [0x2F, 0x2E, 0x2F] := .here (.slash .nil)
  have hlower : EqUpToCase [0x4A, 0x73, 0x4F, 0x6E] [0x6A, 0x73, 0x6F, 0x6E] :=
    .cons (.inr (.inl (by decide))) (.cons (.inl rfl)
      (.cons (.inr (.inl (by decide))) (.cons (.inl rfl) .nil)))
  have hpart : Location.IsPart ([0xE4, 0x2E, 0x62] ++ 0x2E :: [0x4A, 0x73, 0x4F, 0x6E]) :=
    ⟨by decide, by decide, by decide⟩
  refine ⟨(hnamed _ _).mp (by decide +kernel), ?_, ?_, ?_, ?_, ?_⟩
  · exact hdirectory _ _ _ _ (.inr rfl) (.inl rfl) hpart hbehind
  · exact hcase _ _ _ _ _ (.inl rfl) (by decide) (by decide) (by decide) (by decide) hlower hbehind
  · exact hstem _ _ _ _ _ (.inl rfl) (by decide) (by decide) (by decide) (by decide) (by decide)
      (by decide) hbehind
  · exact htrail _ _ hbehind
  · exact ((hresolve none _).mp (by decide +kernel)).2

end Format

end InferenceConfig
