import InferenceConfig.Message

/-!
# Look-ups in a Well-Formed Table

The check of a table compares neighbours only, and the reader of a message looks fields up
by their number. The check is enough for the look-up: the numbers of a table that passes it
ascend from every field to every later one, so they are distinct, and the field that is
found for a number is the field that has it.

Both kinds of messages have a table that passes the check. All that is known about their
field numbers is derived from that.

## Main results

* `Field.isWellFormed_iff_pairwise` — what the check of neighbours amounts to;
* `Field.withNumber?_eq_some_iff` — the look-up in a table that passes it;
* `Field.isWellFormed_decides_table` — the check as a whole, and what may be relied on;
* `Kind.isWellFormed_fields` — the tables of both kinds pass it;
* `Kind.fieldWithNumber?_eq_some_iff`, `Kind.fieldWithName?_eq_some_iff` — the look-ups in
  their tables;
* `Kind.number_notMem_reserved` — no assigned number is retired.
-/

namespace InferenceConfig

namespace Field

variable {fields : List Field} {reserved : List Nat}

/-- Numbers that ascend from each field to the next ascend from each field to every later
one. Induction on the table: the first number is below the second, and the second is below
all that follow. -/
theorem isWellFormed_iff_pairwise :
    isWellFormed fields reserved = true ↔
      fields.Pairwise (fun earlier later => earlier.number < later.number) ∧
        ∀ field ∈ fields, field.number ∉ reserved := by
  induction fields with
  | nil => simp [isWellFormed]
  | cons first rest ih =>
      cases rest with
      | nil => simp [isWellFormed]
      | cons second rest =>
          simp only [isWellFormed, Bool.and_eq_true, Bool.not_eq_true', decide_eq_true_eq,
            List.contains_eq_mem, decide_eq_false_iff_not]
          rw [ih, List.pairwise_cons (a := first), List.forall_mem_cons (a := first)]
          constructor
          · rintro ⟨⟨hfirst, hlt⟩, hpairwise, hrest⟩
            refine ⟨⟨fun later hlater => ?_, hpairwise⟩, hfirst, hrest⟩
            rcases List.mem_cons.mp hlater with rfl | hlater
            · exact hlt
            · exact Nat.lt_trans hlt (List.rel_of_pairwise_cons hpairwise hlater)
          · rintro ⟨⟨hlt, hpairwise⟩, hfirst, hrest⟩
            exact ⟨⟨hfirst, hlt second List.mem_cons_self⟩, hpairwise, hrest⟩

/-- In a table that passes the check, fields with the same number are equal. -/
theorem eq_of_number_eq {field other : Field} (h : isWellFormed fields reserved = true)
    (hfield : field ∈ fields) (hother : other ∈ fields)
    (hnumber : field.number = other.number) : field = other := by
  obtain ⟨hpairwise, -⟩ := isWellFormed_iff_pairwise.mp h
  have hforward : fields.Pairwise fun earlier later =>
      earlier.number = later.number → earlier = later :=
    hpairwise.imp fun hlt heq => absurd heq (Nat.ne_of_lt hlt)
  have hbackward : fields.Pairwise (flip fun earlier later =>
      earlier.number = later.number → earlier = later) :=
    hpairwise.imp fun hlt heq => absurd heq.symm (Nat.ne_of_lt hlt)
  exact List.Pairwise.forall_of_forall_of_flip (fun _ _ _ => rfl) hforward hbackward
    hfield hother hnumber

/-- In a table that passes the check, the field that is found for a number is the field that
has it. -/
theorem withNumber?_eq_some_iff {field : Field} {number : Nat}
    (h : isWellFormed fields reserved = true) :
    withNumber? fields number = some field ↔ field ∈ fields ∧ field.number = number := by
  rw [withNumber?]
  constructor
  · intro hfind
    exact ⟨List.mem_of_find?_eq_some hfind, by simpa using List.find?_some hfind⟩
  · rintro ⟨hmem, rfl⟩
    obtain ⟨found, hfound⟩ :
        ∃ found, fields.find? (·.number == field.number) = some found := by
      rw [← Option.isSome_iff_exists, List.find?_isSome]
      exact ⟨field, hmem, by simp⟩
    have hnumber : found.number = field.number := by simpa using List.find?_some hfound
    rw [hfound, eq_of_number_eq h (List.mem_of_find?_eq_some hfound) hmem hnumber]

/-- No field is found for a number exactly if none has it. -/
theorem withNumber?_eq_none_iff {number : Nat} :
    withNumber? fields number = none ↔ ∀ field ∈ fields, field.number ≠ number := by
  simp [withNumber?]

/-- In a table that passes the check, no two fields have the same number. -/
theorem nodup_number (h : isWellFormed fields reserved = true) :
    (fields.map Field.number).Nodup := by
  obtain ⟨hpairwise, -⟩ := isWellFormed_iff_pairwise.mp h
  exact List.pairwise_map.mpr (hpairwise.imp Nat.ne_of_lt)

/-- **The check of a table is exact.** A table passes it exactly if the number at each position
is below the number at every later position and no field has a reserved number. Then the numbers
are distinct, each field is what is found for its own number, and nothing is found for a reserved
one. -/
theorem isWellFormed_decides_table (fields : List Field) (reserved : List Nat) :
    (isWellFormed fields reserved = true ↔
      (∀ i j (hi : i < fields.length) (hj : j < fields.length), i < j →
        fields[i].number < fields[j].number) ∧
      ∀ field ∈ fields, field.number ∉ reserved) ∧
    (isWellFormed fields reserved = true →
      (fields.map Field.number).Nodup ∧
      (∀ field ∈ fields, withNumber? fields field.number = some field) ∧
      ∀ number ∈ reserved, withNumber? fields number = none) := by
  constructor
  · rw [isWellFormed_iff_pairwise, List.pairwise_iff_getElem]
  · intro h
    refine ⟨nodup_number h, fun field hfield => ?_, fun number hnumber => ?_⟩
    · exact (withNumber?_eq_some_iff h).mpr ⟨hfield, rfl⟩
    · rw [withNumber?_eq_none_iff]
      rintro field hfield rfl
      exact (isWellFormed_iff_pairwise.mp h).2 field hfield hnumber

/-- A table whose fields all have the same name: the numbers tell them apart, and the reserved
numbers lie between and around them. -/
theorem isWellFormed_decides_table_sameName :
    isWellFormed [⟨"f", 2⟩, ⟨"f", 5⟩, ⟨"f", 7⟩] [1, 3, 6, 4294967295] = true ∧
    withNumber? [⟨"f", 2⟩, ⟨"f", 5⟩, ⟨"f", 7⟩] 5 = some ⟨"f", 5⟩ ∧
    withNumber? [⟨"f", 2⟩, ⟨"f", 5⟩, ⟨"f", 7⟩] 3 = none := by
  have hpasses : isWellFormed [⟨"f", 2⟩, ⟨"f", 5⟩, ⟨"f", 7⟩] [1, 3, 6, 4294967295] = true := by
    decide
  obtain ⟨-, hfinds⟩ :=
    isWellFormed_decides_table [⟨"f", 2⟩, ⟨"f", 5⟩, ⟨"f", 7⟩] [1, 3, 6, 4294967295]
  obtain ⟨-, hfield, hreserved⟩ := hfinds hpasses
  exact ⟨hpasses, hfield ⟨"f", 5⟩ (by simp), hreserved 3 (by simp)⟩

end Field

namespace Kind

variable {kind : Kind} {field : Field} {number : Nat}

/-- The table of each kind fits its retired numbers. -/
theorem isWellFormed_fields (kind : Kind) :
    Field.isWellFormed kind.fields kind.reserved = true := by
  cases kind <;> decide

/-- The field of a number is the one in the table that has it. -/
theorem fieldWithNumber?_eq_some_iff :
    kind.fieldWithNumber? number = some field ↔
      field ∈ kind.fields ∧ field.number = number :=
  Field.withNumber?_eq_some_iff kind.isWellFormed_fields

/-- A number has no field exactly if no field of the table has it. -/
theorem fieldWithNumber?_eq_none_iff :
    kind.fieldWithNumber? number = none ↔ ∀ field ∈ kind.fields, field.number ≠ number :=
  Field.withNumber?_eq_none_iff

/-- The names of a kind are distinct, so the field that is found for a name is the field that
has it. -/
theorem fieldWithName?_eq_some_iff {name : String} :
    kind.fieldWithName? name = some field ↔ field ∈ kind.fields ∧ field.name = name := by
  constructor
  · intro h
    exact ⟨List.mem_of_find?_eq_some h, by simpa using List.find?_some h⟩
  · rintro ⟨hfield, rfl⟩
    have hall : ∀ field ∈ kind.fields, kind.fieldWithName? field.name = some field := by
      cases kind <;> decide
    exact hall field hfield

/-- Names tell the fields of a kind apart, and so do their numbers. -/
theorem name_eq_iff {other : Field} (hfield : field ∈ kind.fields)
    (hother : other ∈ kind.fields) : field.name = other.name ↔ field.number = other.number := by
  constructor
  · intro hname
    have hfound := fieldWithName?_eq_some_iff.mpr ⟨hfield, hname⟩
    rw [fieldWithName?_eq_some_iff.mpr ⟨hother, rfl⟩, Option.some.injEq] at hfound
    rw [hfound]
  · intro hnumber
    rw [Field.eq_of_number_eq kind.isWellFormed_fields hfield hother hnumber]

/-- A number is retired exactly if it is in the list of retired ones. -/
theorem isReserved_iff : kind.isReserved number = true ↔ number ∈ kind.reserved := by
  simp [isReserved]

/-- No assigned number is retired. -/
theorem number_notMem_reserved (h : field ∈ kind.fields) :
    field.number ∉ kind.reserved :=
  (Field.isWellFormed_iff_pairwise.mp kind.isWellFormed_fields).2 field h

/-- Each number is retired, or assigned, or neither. -/
theorem number_cases (kind : Kind) (number : Nat) :
    number ∈ kind.reserved ∨ (∃ field ∈ kind.fields, field.number = number) ∨
      (∀ field ∈ kind.fields, field.number ≠ number) ∧ number ∉ kind.reserved := by
  by_cases hreserved : number ∈ kind.reserved
  · exact .inl hreserved
  · cases hfound : kind.fieldWithNumber? number with
    | some field => exact .inr (.inl ⟨field, fieldWithNumber?_eq_some_iff.mp hfound⟩)
    | none => exact .inr (.inr ⟨fieldWithNumber?_eq_none_iff.mp hfound, hreserved⟩)

/-- The numbers of a kind are field numbers: they start at one, and their keys have at most
32 bits. -/
theorem number_pos_and_lt (h : field ∈ kind.fields) :
    1 ≤ field.number ∧ field.number < 0x20000000 := by
  have hall : ∀ field ∈ kind.fields, 1 ≤ field.number ∧ field.number < 0x20000000 := by
    cases kind <;> decide
  exact hall field h

end Kind

end InferenceConfig
