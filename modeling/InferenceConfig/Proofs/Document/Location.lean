import InferenceConfig.Document.Location
import Mathlib.Data.List.Basic

/-!
# Names and Extensions of Files

The name of a file is the last part of its path. Slashes at the end of a path do not matter, nor
do dots between them, because neither is a part that names anything; two dots are a part, but name
no file. Here a path is taken apart the other way round: into what stands before its last part,
the part, and what may follow it. The directories before it have no influence on the name.

The extension is what follows the last dot of the name, unless nothing precedes that dot. So a
name that is a stem, a dot and an extension is read as just that, if the stem is not empty and the
extension has no dot.

## Main definitions

* `Location.IsDirectory`, `Location.IsTrail` — what may stand before the last part, and behind it;
* `Location.IsPart` — a part that names something;
* `Location.EndsIn` — the last part of a path.

## Main results

* `Location.splitSlashes_eq_splitOn` — the parts are the pieces between slashes;
* `Location.fileName?_eq_some_iff` — the name of a file is the last part of its path;
* `Location.splitLastDot?_eq_some_iff` — a name is split at its last dot;
* `Location.extension?_eq_some_iff` — the extension of a file;
* `Location.EndsIn.extension?` — the extension depends on the last part only;
* `Location.fileName?_append_of_isTrail` — what may follow the last part does not matter.
-/

namespace InferenceConfig

namespace Location

/-- What may stand before the last part of a path: nothing, or anything up to a slash. -/
def IsDirectory (bytes : List UInt8) : Prop :=
  bytes = [] ∨ bytes.getLast? = some 0x2F

/-- What may stand behind the last part of a path: slashes, each of them perhaps with a single dot
behind it. -/
inductive IsTrail : (bytes : List UInt8) → Prop
  | nil : IsTrail []
  | slash {rest : List UInt8} : IsTrail rest → IsTrail (0x2F :: rest)
  | here {rest : List UInt8} : IsTrail rest → IsTrail (0x2F :: 0x2E :: rest)

/-- The bytes are a part that names something: they have no slash, and are neither empty nor a
single dot. -/
def IsPart (name : List UInt8) : Prop :=
  0x2F ∉ name ∧ name ≠ [] ∧ name ≠ here

/-- The last part of the path that names something is this one. -/
def EndsIn (location : Location) (name : List UInt8) : Prop :=
  ∃ directory trail, location.bytes = directory ++ (name ++ trail) ∧
    IsDirectory directory ∧ IsPart name ∧ IsTrail trail

variable {location : Location} {bytes part name stem ext directory trail : List UInt8}
  {parts before after : List (List UInt8)}

/-! ### Parts -/

/-- The parts of a path are its pieces between slashes. -/
theorem splitSlashes_eq_splitOn (bytes : List UInt8) :
    splitSlashes bytes = bytes.splitOn 0x2F := by
  fun_induction splitSlashes bytes with
  | case1 => rfl
  | case2 rest ih => rw [List.splitOn_cons_eq_if_modifyHead, if_pos (by rfl), ih]
  | case3 byte rest _ hnil ih => exact absurd (ih.symm.trans hnil) (List.splitOn_ne_nil _ _)
  | case4 byte rest hbyte part parts hparts ih =>
      rw [List.splitOn_cons_eq_if_modifyHead, if_neg (by simpa using hbyte), ← ih, hparts,
        List.modifyHead_cons]

/-- A slash separates the parts before it from those behind it. -/
theorem splitSlashes_append_slash (bytes rest : List UInt8) :
    splitSlashes (bytes ++ 0x2F :: rest) = splitSlashes bytes ++ splitSlashes rest := by
  simp only [splitSlashes_eq_splitOn, List.splitOn_append_cons_self]

/-- Without slashes, there is one part. -/
theorem splitSlashes_of_notMem (h : 0x2F ∉ part) : splitSlashes part = [part] := by
  rw [splitSlashes_eq_splitOn, List.splitOn_eq_singleton h]

/-- A path is its first part and the others, each behind a slash, and no part has a slash.
Induction on the path: a byte is a slash, or the first byte of its part. -/
theorem eq_append_of_splitSlashes (h : splitSlashes bytes = part :: parts) :
    bytes = part ++ parts.flatMap (0x2F :: ·) ∧ ∀ other ∈ part :: parts, 0x2F ∉ other := by
  fun_induction splitSlashes bytes generalizing part parts with
  | case1 =>
      obtain ⟨rfl, rfl⟩ := List.cons.inj h
      simp
  | case2 rest ih =>
      obtain ⟨rfl, rfl⟩ := List.cons.inj h
      obtain ⟨next, others, hnext⟩ := List.exists_cons_of_ne_nil
        (splitSlashes_eq_splitOn rest ▸ List.splitOn_ne_nil 0x2F rest)
      obtain ⟨hrest, hslash⟩ := ih hnext
      rw [hnext]
      refine ⟨?_, List.forall_mem_cons.mpr ⟨List.not_mem_nil, hslash⟩⟩
      rw [List.flatMap_cons, List.cons_append, ← hrest, List.nil_append]
  | case3 byte rest _ hnil _ =>
      exact absurd (splitSlashes_eq_splitOn rest ▸ hnil) (List.splitOn_ne_nil 0x2F rest)
  | case4 byte rest hbyte next others hnext ih =>
      obtain ⟨rfl, rfl⟩ := List.cons.inj h
      obtain ⟨hrest, hslash⟩ := ih hnext
      obtain ⟨hhead, hothers⟩ := List.forall_mem_cons.mp hslash
      refine ⟨by rw [List.cons_append, ← hrest], List.forall_mem_cons.mpr ⟨?_, hothers⟩⟩
      exact List.not_mem_cons_of_ne_of_not_mem (Ne.symm hbyte) hhead

/-- Each part of a path stands behind a directory. -/
theorem exists_isDirectory_of_splitSlashes (h : splitSlashes bytes = before ++ name :: after) :
    ∃ directory, bytes = directory ++ (name ++ after.flatMap (0x2F :: ·)) ∧
      IsDirectory directory ∧ 0x2F ∉ name := by
  cases before with
  | nil =>
      obtain ⟨hbytes, hslash⟩ := eq_append_of_splitSlashes h
      exact ⟨[], hbytes, .inl rfl, hslash name List.mem_cons_self⟩
  | cons first before =>
      rw [List.cons_append] at h
      obtain ⟨hbytes, hslash⟩ := eq_append_of_splitSlashes h
      refine ⟨first ++ before.flatMap (0x2F :: ·) ++ [0x2F], ?_, .inr List.getLast?_concat,
        hslash name (by simp)⟩
      rw [hbytes, List.flatMap_append, List.flatMap_cons]
      simp only [List.append_assoc, List.cons_append, List.nil_append]

/-- Slashes with empty parts and single dots behind them are a trail. -/
theorem isTrail_flatMap (h : ∀ part ∈ parts, part = [] ∨ part = here) :
    IsTrail (parts.flatMap (0x2F :: ·)) := by
  induction parts with
  | nil => exact .nil
  | cons part parts ih =>
      obtain ⟨hpart, hparts⟩ := List.forall_mem_cons.mp h
      rcases hpart with rfl | rfl
      · exact .slash (ih hparts)
      · exact .here (ih hparts)

/-! ### Parts that name something -/

/-- The parts of a path that are neither empty nor a single dot. -/
def names (bytes : List UInt8) : List (List UInt8) :=
  (splitSlashes bytes).filter fun part => part ≠ [] ∧ part ≠ here

/-- A slash separates the names before it from those behind it. -/
theorem names_append_slash (bytes rest : List UInt8) :
    names (bytes ++ 0x2F :: rest) = names bytes ++ names rest := by
  rw [names, splitSlashes_append_slash, List.filter_append, ← names, ← names]

/-- A part that is neither empty nor a single dot is a name. -/
theorem names_of_isPart (h : IsPart name) : names name = [name] := by
  obtain ⟨hslash, hnil, hhere⟩ := h
  rw [names, splitSlashes_of_notMem hslash, List.filter_singleton]
  simp [hnil, hhere]

/-- What may follow the last part names nothing. -/
theorem names_append_of_isTrail (h : IsTrail trail) (bytes : List UInt8) :
    names (bytes ++ trail) = names bytes := by
  induction h generalizing bytes with
  | nil => rw [List.append_nil]
  | @slash rest _ ih =>
      calc names (bytes ++ 0x2F :: rest)
          = names (bytes ++ [0x2F] ++ rest) := by rw [List.append_assoc, List.singleton_append]
        _ = names (bytes ++ [0x2F]) := ih _
        _ = names bytes ++ names [] := names_append_slash bytes []
        _ = names bytes := List.append_nil _
  | @here rest _ ih =>
      calc names (bytes ++ 0x2F :: 0x2E :: rest)
          = names (bytes ++ 0x2F :: [0x2E] ++ rest) := by simp
        _ = names (bytes ++ 0x2F :: [0x2E]) := ih _
        _ = names bytes ++ names [0x2E] := names_append_slash bytes [0x2E]
        _ = names bytes := List.append_nil _

/-- The directory before a part is named before it. -/
theorem names_directory_append (h : IsDirectory directory) (bytes : List UInt8) :
    names (directory ++ bytes) = names directory ++ names bytes := by
  rcases h with rfl | h
  · rfl
  · obtain ⟨before, rfl⟩ := List.getLast?_eq_some_iff.mp h
    rw [List.append_assoc, List.singleton_append, names_append_slash,
      names_append_of_isTrail (.slash .nil)]

/-- The last name in a path is its last part. Nothing that names anything follows it, and what
comes before it ends with a slash. -/
theorem getLast?_names_eq_some_iff :
    (names location.bytes).getLast? = some name ↔ location.EndsIn name := by
  constructor
  · intro h
    obtain ⟨earlier, hnames⟩ := List.getLast?_eq_some_iff.mp h
    obtain ⟨first, last, hparts, -, hlast⟩ := List.filter_eq_append_iff.mp hnames
    obtain ⟨between, after, rfl, -, hname, hafter⟩ := List.filter_eq_cons_iff.mp hlast
    rw [← List.append_assoc] at hparts
    obtain ⟨directory, hbytes, hdirectory, hslash⟩ := exists_isDirectory_of_splitSlashes hparts
    have htrail : ∀ part ∈ after, part = [] ∨ part = here := by
      intro part hpart
      have hnone := List.filter_eq_nil_iff.mp hafter part hpart
      rwa [decide_eq_true_iff, not_and_or, not_not, not_not] at hnone
    exact ⟨directory, _, hbytes, hdirectory, ⟨hslash, of_decide_eq_true hname⟩,
      isTrail_flatMap htrail⟩
  · rintro ⟨directory, trail, hbytes, hdirectory, hname, htrail⟩
    rw [hbytes, ← List.append_assoc, names_append_of_isTrail htrail,
      names_directory_append hdirectory, names_of_isPart hname, List.getLast?_concat]

/-! ### The name of a file -/

/-- The last part is the last of the names, unless that leads up. -/
theorem fileName?_eq (location : Location) :
    location.fileName? =
      match (names location.bytes).getLast? with
      | none => none
      | some name => if name = above then none else some name :=
  rfl

/-- The name of a file is the last part of its path, unless that is two dots. -/
theorem fileName?_eq_some_iff :
    location.fileName? = some name ↔ location.EndsIn name ∧ name ≠ above := by
  rw [← getLast?_names_eq_some_iff, fileName?_eq]
  cases (names location.bytes).getLast? with
  | none => simp
  | some found =>
      simp only [Option.ite_none_left_eq_some, Option.some.injEq]
      constructor
      · rintro ⟨habove, rfl⟩
        exact ⟨rfl, habove⟩
      · rintro ⟨rfl, habove⟩
        exact ⟨habove, rfl⟩

/-- What may follow the last part of a path does not change the name. -/
theorem fileName?_append_of_isTrail (h : IsTrail trail) (location : Location) :
    fileName? ⟨location.bytes ++ trail⟩ = location.fileName? := by
  rw [fileName?_eq, fileName?_eq, names_append_of_isTrail h]

/-- A path that ends in a name has it as its last part, unless it leads up. -/
theorem EndsIn.fileName? (h : location.EndsIn name) :
    location.fileName? = if name = above then none else some name := by
  rw [fileName?_eq, getLast?_names_eq_some_iff.mpr h]

/-! ### The extension of a file -/

/-- Without dots, there is no extension. -/
theorem splitLastDot?_of_notMem (h : 0x2E ∉ name) : splitLastDot? name = none := by
  induction name with
  | nil => rfl
  | cons byte name ih =>
      obtain ⟨hbyte, hname⟩ := List.ne_and_not_mem_of_not_mem_cons h
      simp only [splitLastDot?, ih hname, if_neg (Ne.symm hbyte)]

/-- The extension stands behind the last dot. -/
theorem splitLastDot?_append (h : 0x2E ∉ ext) (stem : List UInt8) :
    splitLastDot? (stem ++ 0x2E :: ext) = some (stem, ext) := by
  induction stem with
  | nil => simp only [List.nil_append, splitLastDot?, splitLastDot?_of_notMem h, if_true]
  | cons byte stem ih => simp only [List.cons_append, splitLastDot?, ih]

/-- What is not split has no dot. -/
theorem notMem_of_splitLastDot? (h : splitLastDot? name = none) : 0x2E ∉ name := by
  fun_induction splitLastDot? name with
  | case1 => exact List.not_mem_nil
  | case2 => simp at h
  | case3 => simp at h
  | case4 byte rest hnone hbyte ih =>
      exact List.not_mem_cons_of_ne_of_not_mem (Ne.symm hbyte) (ih hnone)

/-- A name is split at its last dot. -/
theorem splitLastDot?_eq_some_iff :
    splitLastDot? name = some (stem, ext) ↔ name = stem ++ 0x2E :: ext ∧ 0x2E ∉ ext := by
  constructor
  · intro h
    fun_induction splitLastDot? name generalizing stem with
    | case1 => simp at h
    | case2 byte rest stem' ext' hrest ih =>
        obtain ⟨rfl, rfl⟩ := Prod.mk.inj (Option.some.inj h)
        obtain ⟨rfl, hext⟩ := ih hrest
        exact ⟨rfl, hext⟩
    | case3 rest hnone _ =>
        obtain ⟨rfl, rfl⟩ := Prod.mk.inj (Option.some.inj h)
        exact ⟨rfl, notMem_of_splitLastDot? hnone⟩
    | case4 => simp at h
  · rintro ⟨rfl, hext⟩
    exact splitLastDot?_append hext stem

/-- The extension of a file is what follows the last dot of its name, if something precedes that
dot. -/
theorem extension?_eq_some_iff :
    location.extension? = some ext ↔
      ∃ stem, location.EndsIn (stem ++ 0x2E :: ext) ∧ stem ++ 0x2E :: ext ≠ above ∧
        stem ≠ [] ∧ 0x2E ∉ ext := by
  constructor
  · intro h
    cases hname : location.fileName? with
    | none => simp [extension?, hname] at h
    | some name =>
        obtain ⟨hends, habove⟩ := fileName?_eq_some_iff.mp hname
        cases hsplit : splitLastDot? name with
        | none => simp [extension?, hname, hsplit] at h
        | some halves =>
            obtain ⟨stem, found⟩ := halves
            obtain ⟨rfl, hext⟩ := splitLastDot?_eq_some_iff.mp hsplit
            simp only [extension?, hname, hsplit, Option.ite_none_left_eq_some,
              Option.some.injEq] at h
            obtain ⟨hstem, rfl⟩ := h
            exact ⟨stem, hends, habove, hstem, hext⟩
  · rintro ⟨stem, hends, habove, hstem, hext⟩
    have hname := fileName?_eq_some_iff.mpr ⟨hends, habove⟩
    simp only [extension?, hname, splitLastDot?_append hext, if_neg hstem]

/-- A stem that is not empty, a dot and an extension are a part. -/
theorem isPart_append (hstem : 0x2F ∉ stem) (hne : stem ≠ []) (hext : 0x2F ∉ ext) :
    IsPart (stem ++ 0x2E :: ext) := by
  have hslash : 0x2F ∉ stem ++ 0x2E :: ext := by
    rw [List.mem_append, List.mem_cons, not_or, not_or]
    exact ⟨hstem, by decide, hext⟩
  obtain ⟨byte, stem, rfl⟩ := List.exists_cons_of_ne_nil hne
  exact ⟨hslash, by simp, by simp [here]⟩

/-- Nothing follows the second one of two dots. -/
theorem eq_nil_of_append_eq_above (hne : stem ≠ []) (h : stem ++ 0x2E :: ext = above) :
    ext = [] := by
  have hlength := congrArg List.length h
  have hpos := List.length_pos_of_ne_nil hne
  simp only [List.length_append, List.length_cons, above, List.length_nil] at hlength
  exact List.eq_nil_of_length_eq_zero (by omega)

/-- The extension depends on the name only. -/
theorem extension?_congr {other : Location} (h : location.fileName? = other.fileName?) :
    location.extension? = other.extension? := by
  rw [extension?, extension?, h]

/-- A name with a dot that something precedes has what follows its last dot as its extension.
Only the name of two dots has none. -/
theorem EndsIn.extension? (h : location.EndsIn (stem ++ 0x2E :: ext)) (hstem : stem ≠ [])
    (hext : 0x2E ∉ ext) :
    location.extension? = if stem ++ 0x2E :: ext = above then none else some ext := by
  split
  · next habove => rw [Location.extension?, h.fileName?, if_pos habove]
  · next habove => exact extension?_eq_some_iff.mpr ⟨stem, h, habove, hstem, hext⟩

end Location

end InferenceConfig
