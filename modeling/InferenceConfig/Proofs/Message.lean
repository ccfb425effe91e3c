import InferenceConfig.Proofs.Field
import Mathlib.Data.List.Basic
import Mathlib.Data.List.Perm.Basic
import Mathlib.Tactic.Choose

/-!
# Lists of a Message

A message is its lists, so each way of building a message is described by what it does to
the list of every field. Nothing here depends on which fields a kind has.

## Main results

* `Message.values_empty` — the lists of the empty message;
* `Message.values_push` — a push appends to one list and keeps all others;
* `Message.exists_values_iff` — a message may have any lists;
* `Message.values_append` — the lists of a concatenation, which is associative and has the
  empty message as its identity;
* `Message.filterMap_entries` — the entries of a field are its values, in order;
* `Message.foldl_addEntry_entries` — a message is made up of its entries;
* `Message.entries_foldl_addEntry_perm` — entries that are added are those of the message, up to
  their order;
* `Message.cut_flatMap` — where something written item by item may be cut off;
* `Message.entries_foldl_addEntry` — the first entries of a message make up a message of
  theirs.
-/

namespace InferenceConfig

namespace Message

variable {kind : Kind} {field : Field}

/-- A list is stored for every assigned number. -/
theorem values?_of_mem (message : Message kind) (h : field ∈ kind.fields) :
    message.values? field.number = some (message.values field.number) := by
  cases hvalues : message.values? field.number with
  | none =>
      have hnone := Kind.fieldWithNumber?_eq_none_iff.mp (values?_eq_none_iff.mp hvalues)
      exact absurd rfl (hnone field h)
  | some list => simp [values, hvalues]

/-- The empty message stores no value for any field. -/
@[simp] theorem values_empty (h : field ∈ kind.fields) :
    (empty kind).values field.number = [] :=
  values_ofLists h

/-- The list that is put into a message is stored for its number, and all other lists stay. -/
theorem values_withValues (message : Message kind) (number : Nat) (list : List String)
    (h : field ∈ kind.fields) :
    (message.withValues number list).values field.number =
      if field.number = number then list else message.values field.number :=
  values_ofLists h

/-- A list that is taken out of a message and put back changes nothing. -/
theorem withValues_of_values? {message : Message kind} {number : Nat} {list : List String}
    (h : message.values? number = some list) : message.withValues number list = message := by
  refine ext_values fun field hfield => ?_
  rw [values_withValues message number list hfield]
  split
  · next hnumber => rw [values, hnumber, h, Option.getD_some]
  · rfl

/-- A push takes the list of a field out of the message and puts it back with one more value. -/
theorem push?_of_mem (message : Message kind) (value : String) (h : field ∈ kind.fields) :
    message.push? field.number value =
      some (message.withValues field.number (message.values field.number ++ [value])) := by
  rw [push?, values?_of_mem message h, Option.map_some]

/-- A push appends its value to the list for its number and keeps all other lists. Nothing
is pushed for a number that is not assigned. -/
theorem values_push (message : Message kind) (number : Nat) (value : String)
    (h : field ∈ kind.fields) :
    ((message.push? number value).getD message).values field.number =
      message.values field.number ++ if number = field.number then [value] else [] := by
  rw [push?]
  cases hvalues : message.values? number with
  | none =>
      have hne : number ≠ field.number := by
        rintro rfl
        rw [values?_of_mem message h] at hvalues
        simp at hvalues
      rw [Option.map_none, Option.getD_none, if_neg hne, List.append_nil]
  | some list =>
      rw [Option.map_some, Option.getD_some, values_withValues message number _ h]
      by_cases hnumber : field.number = number
      · subst hnumber
        have hlist : message.values field.number = list := by simp [values, hvalues]
        rw [if_pos rfl, if_pos rfl, hlist]
      · rw [if_neg hnumber, if_neg (Ne.symm hnumber), List.append_nil]

/-- There is a message whose lists all have a property exactly if there is such a list for
every field. -/
theorem exists_values_iff {P : Field → List String → Prop} :
    (∃ message : Message kind, ∀ field ∈ kind.fields, P field (message.values field.number)) ↔
      ∀ field ∈ kind.fields, ∃ list, P field list := by
  constructor
  · rintro ⟨message, h⟩ field hfield
    exact ⟨_, h field hfield⟩
  · intro h
    have hnumber : ∀ number, ∃ list, ∀ field ∈ kind.fields,
        field.number = number → P field list := by
      intro number
      cases hfound : kind.fieldWithNumber? number with
      | none =>
          refine ⟨[], fun field hfield heq => ?_⟩
          exact absurd heq (Kind.fieldWithNumber?_eq_none_iff.mp hfound field hfield)
      | some found =>
          obtain ⟨hmem, rfl⟩ := Kind.fieldWithNumber?_eq_some_iff.mp hfound
          obtain ⟨list, hlist⟩ := h found hmem
          refine ⟨list, fun field hfield heq => ?_⟩
          rwa [Field.eq_of_number_eq kind.isWellFormed_fields hfield hmem heq]
    choose lists hlists using hnumber
    refine ⟨ofLists kind lists, fun field hfield => ?_⟩
    rw [values_ofLists hfield]
    exact hlists field.number field hfield rfl

/-! ### Concatenation -/

/-- Appending messages appends their lists. -/
@[simp] theorem values_append (first second : Message kind) (h : field ∈ kind.fields) :
    (first.append second).values field.number =
      first.values field.number ++ second.values field.number :=
  values_ofLists h

/-- Nothing is added by the empty message. -/
theorem append_empty (message : Message kind) : message.append (empty kind) = message :=
  ext_values fun field hfield => by
    rw [values_append _ _ hfield, values_empty hfield, List.append_nil]

/-- A message added to the empty one is the result. -/
theorem empty_append (message : Message kind) : (empty kind).append message = message :=
  ext_values fun field hfield => by
    rw [values_append _ _ hfield, values_empty hfield, List.nil_append]

/-- Messages may be appended in any grouping. -/
theorem append_assoc (first second third : Message kind) :
    (first.append second).append third = first.append (second.append third) :=
  ext_values fun field hfield => by
    simp only [values_append _ _ hfield, List.append_assoc]

/-! ### Entries -/

/-- The values of one field, selected by a number: all of them or none. -/
theorem filterMap_map_entry (field : Field) (values : List String) (number : Nat) :
    (values.map fun value => (field, value)).filterMap
        (fun entry => if entry.1.number = number then some entry.2 else none) =
      if field.number = number then values else [] := by
  induction values with
  | nil => simp
  | cons value values ih =>
      rw [List.map_cons, List.filterMap_cons, ih]
      by_cases h : field.number = number
      · simp only [if_pos h]
      · simp only [if_neg h]

/-- From a table without repeated numbers, what only one field contributes to is what this field
contributes. Induction on the table. -/
theorem flatMap_eq_of_mem {α : Type} {fields : List Field} {write : Field → List α}
    (hdistinct : fields.Pairwise fun earlier later => earlier.number ≠ later.number)
    (h : field ∈ fields)
    (hothers : ∀ other ∈ fields, other.number ≠ field.number → write other = []) :
    fields.flatMap write = write field := by
  induction fields with
  | nil => simp at h
  | cons first rest ih =>
      obtain ⟨hfirst, hrest⟩ := List.pairwise_cons.mp hdistinct
      obtain ⟨hnone, hnil⟩ := List.forall_mem_cons.mp hothers
      rw [List.flatMap_cons]
      rcases List.mem_cons.mp h with rfl | hmem
      · have hrest : rest.flatMap write = [] := List.flatMap_eq_nil_iff.mpr fun other hother =>
          hnil other hother (Ne.symm (hfirst other hother))
        rw [hrest, List.append_nil]
      · rw [ih hrest hmem hnil, hnone (hfirst field hmem), List.nil_append]

/-- From a table without repeated numbers, the entries of a field are its values. -/
theorem filterMap_flatMap_fields {fields : List Field} (lists : Nat → List String)
    (hdistinct : fields.Pairwise fun earlier later => earlier.number ≠ later.number)
    (h : field ∈ fields) :
    (fields.flatMap fun other =>
        (lists other.number).map fun value => (other, value)).filterMap
      (fun entry => if entry.1.number = field.number then some entry.2 else none) =
      lists field.number := by
  rw [List.filterMap_flatMap]
  simp only [filterMap_map_entry]
  refine (flatMap_eq_of_mem hdistinct h fun other _ hne => ?_).trans ?_
  · exact if_neg hne
  · exact if_pos rfl

/-- The entries of a field are its values, in order. -/
theorem filterMap_entries (message : Message kind) (h : field ∈ kind.fields) :
    message.entries.filterMap
        (fun entry => if entry.1.number = field.number then some entry.2 else none) =
      message.values field.number := by
  obtain ⟨hascending, -⟩ := Field.isWellFormed_iff_pairwise.mp kind.isWellFormed_fields
  exact filterMap_flatMap_fields message.values (hascending.imp Nat.ne_of_lt) h

/-- The message with one more entry. -/
def addEntry (message : Message kind) (entry : Field × String) : Message kind :=
  (message.push? entry.1.number entry.2).getD message

/-- A message stores an entry of every field of the kind. -/
theorem push?_eq_some_addEntry (message : Message kind) {entry : Field × String}
    (h : entry.1 ∈ kind.fields) :
    message.push? entry.1.number entry.2 = some (message.addEntry entry) := by
  rw [addEntry, push?, values?_of_mem message h, Option.map_some, Option.getD_some]

/-- Entries add their values to the lists, in order. -/
theorem values_foldl_addEntry (message : Message kind) (entries : List (Field × String))
    (h : field ∈ kind.fields) :
    (entries.foldl addEntry message).values field.number =
      message.values field.number ++ entries.filterMap
        (fun entry => if entry.1.number = field.number then some entry.2 else none) := by
  induction entries generalizing message with
  | nil => exact (List.append_nil _).symm
  | cons entry entries ih =>
      rw [List.foldl_cons, ih, addEntry, values_push _ _ _ h, List.append_assoc,
        List.filterMap_cons]
      by_cases hnumber : entry.1.number = field.number
      · simp only [if_pos hnumber, List.singleton_append]
      · simp only [if_neg hnumber, List.nil_append]

/-- Entries add to a message what they add to the empty one. -/
theorem foldl_addEntry_eq_append (message : Message kind) (entries : List (Field × String)) :
    entries.foldl addEntry message = message.append (entries.foldl addEntry (empty kind)) := by
  refine ext_values fun field hfield => ?_
  rw [values_append _ _ hfield, values_foldl_addEntry _ _ hfield,
    values_foldl_addEntry _ _ hfield, values_empty hfield, List.nil_append]

/-- The entries of a message make up the message. -/
theorem foldl_addEntry_entries (message : Message kind) :
    message.entries.foldl addEntry (empty kind) = message := by
  refine ext_values fun field hfield => ?_
  rw [values_foldl_addEntry _ _ hfield, values_empty hfield, List.nil_append,
    filterMap_entries message hfield]

/-- The entries are the values of the fields of the kind. -/
theorem mem_entries_iff {message : Message kind} {entry : Field × String} :
    entry ∈ message.entries ↔
      entry.1 ∈ kind.fields ∧ entry.2 ∈ message.values entry.1.number := by
  rw [entries, List.mem_flatMap]
  constructor
  · rintro ⟨field, hfield, hentry⟩
    obtain ⟨value, hvalue, rfl⟩ := List.mem_map.mp hentry
    exact ⟨hfield, hvalue⟩
  · rintro ⟨hfield, hvalue⟩
    exact ⟨entry.1, hfield, List.mem_map.mpr ⟨entry.2, hvalue, rfl⟩⟩

/-- Every entry is of a field of the kind. -/
theorem mem_fields_of_mem_entries {message : Message kind} {entry : Field × String}
    (h : entry ∈ message.entries) : entry.1 ∈ kind.fields :=
  (mem_entries_iff.mp h).1

/-- From a table without repeated numbers, one value for one number is one entry. -/
theorem flatMap_entry_of_mem {fields : List Field}
    (hdistinct : fields.Pairwise fun earlier later => earlier.number ≠ later.number)
    (h : field ∈ fields) (value : String) :
    (fields.flatMap fun other =>
      (if field.number = other.number then [value] else []).map fun value => (other, value)) =
      [(field, value)] := by
  refine (flatMap_eq_of_mem hdistinct h fun other _ hne => ?_).trans ?_
  · rw [if_neg (Ne.symm hne), List.map_nil]
  · rw [if_pos rfl, List.map_singleton]

/-- An entry that is added is one more entry of the message. -/
theorem entries_addEntry_perm (message : Message kind) {entry : Field × String}
    (h : entry.1 ∈ kind.fields) :
    (message.addEntry entry).entries.Perm (entry :: message.entries) := by
  obtain ⟨hascending, -⟩ := Field.isWellFormed_iff_pairwise.mp kind.isWellFormed_fields
  have hadded : (message.addEntry entry).entries = kind.fields.flatMap fun field =>
      ((message.values field.number).map fun value => (field, value)) ++
        (if entry.1.number = field.number then [entry.2] else []).map
          fun value => (field, value) := by
    rw [entries]
    refine List.flatMap_congr fun field hfield => ?_
    rw [addEntry, values_push _ _ _ hfield, List.map_append]
  have happend := List.flatMap_append_perm kind.fields
    (fun field => (message.values field.number).map fun value => (field, value))
    (fun field => (if entry.1.number = field.number then [entry.2] else []).map
      fun value => (field, value))
  rw [flatMap_entry_of_mem (hascending.imp Nat.ne_of_lt) h entry.2] at happend
  rw [hadded]
  exact happend.symm.trans (List.perm_append_singleton entry message.entries)

/-- Entries that are added are entries of the message, though not in their order. -/
theorem entries_foldl_addEntry_perm (message : Message kind) {entries : List (Field × String)}
    (h : ∀ entry ∈ entries, entry.1 ∈ kind.fields) :
    (entries.foldl addEntry message).entries.Perm (entries ++ message.entries) := by
  induction entries generalizing message with
  | nil => exact List.Perm.refl _
  | cons entry entries ih =>
      obtain ⟨hentry, hentries⟩ := List.forall_mem_cons.mp h
      have hlater := ih (message.addEntry entry) hentries
      have hfirst := (entries_addEntry_perm message hentry).append_left entries
      exact (hlater.trans hfirst).trans List.perm_middle

/-- A message has no entries exactly if all of its lists are empty. -/
theorem entries_eq_nil_iff {message : Message kind} :
    message.entries = [] ↔ ∀ field ∈ kind.fields, message.values field.number = [] := by
  simp only [entries, List.flatMap_eq_nil_iff, List.map_eq_nil_iff]

/-- The empty message has no entries. -/
@[simp] theorem entries_empty : (empty kind).entries = [] :=
  entries_eq_nil_iff.mpr fun _ hfield => values_empty hfield

/-! ### Cutting off what is written -/

section

variable {α β : Type}

/-- Two parts that are written one after the other are cut within the first one, or behind
it. -/
theorem cut_append {part missing first second : List β}
    (h : part ++ missing = first ++ second) :
    (∃ own, own ≠ [] ∧ part ++ own = first) ∨
      ∃ later, part = first ++ later ∧ later ++ missing = second := by
  rcases List.append_eq_append_iff.mp h with ⟨own, hfirst, hmissing⟩ | ⟨later, hpart, hsecond⟩
  · cases own with
    | nil =>
        rw [List.append_nil] at hfirst
        exact .inr ⟨[], by rw [hfirst, List.append_nil], hmissing⟩
    | cons byte own => exact .inl ⟨byte :: own, List.cons_ne_nil _ _, hfirst.symm⟩
  · exact .inr ⟨later, hpart, hsecond.symm⟩

/-- Items that are written one after another are cut behind some of them, or within the next
one. -/
theorem cut_flatMap {write : α → List β} {items : List α} {part missing : List β}
    (h : part ++ missing = items.flatMap write) :
    ∃ before rest, part = before.flatMap write ++ rest ∧ before <+: items ∧
      (rest = [] ∨ ∃ item own, before ++ [item] <+: items ∧ rest ≠ [] ∧ own ≠ [] ∧
        rest ++ own = write item) := by
  induction items generalizing part with
  | nil =>
      obtain ⟨hpart, -⟩ := List.append_eq_nil_iff.mp h
      exact ⟨[], [], hpart, List.nil_prefix, .inl rfl⟩
  | cons item items ih =>
      rw [List.flatMap_cons] at h
      rcases cut_append h with ⟨own, hown, hwrite⟩ | ⟨later, rfl, hlater⟩
      · refine ⟨[], part, rfl, List.nil_prefix, ?_⟩
        by_cases hpart : part = []
        · exact .inl hpart
        · exact .inr ⟨item, own, ⟨items, rfl⟩, hpart, hown, hwrite⟩
      · obtain ⟨before, rest, rfl, hbefore, hrest⟩ := ih hlater
        refine ⟨item :: before, rest, ?_, List.cons_prefix_cons.mpr ⟨rfl, hbefore⟩, ?_⟩
        · rw [List.flatMap_cons, List.append_assoc]
        · rcases hrest with hnil | ⟨next, own, hnext, hne, hown, hwrite⟩
          · exact .inl hnil
          · exact .inr ⟨next, own, List.cons_prefix_cons.mpr ⟨rfl, hnext⟩, hne, hown, hwrite⟩

end

/-- The first entries of lists are all entries of shorter lists. Induction on the table. -/
theorem exists_lists_of_append {fields : List Field} {lists : Nat → List String}
    (hdistinct : fields.Pairwise fun earlier later => earlier.number ≠ later.number)
    {entries missing : List (Field × String)}
    (h : entries ++ missing = fields.flatMap fun field =>
      (lists field.number).map fun value => (field, value)) :
    ∃ shorter : Nat → List String,
      (fields.flatMap fun field =>
        (shorter field.number).map fun value => (field, value)) = entries := by
  induction fields generalizing entries with
  | nil => exact ⟨lists, (List.append_eq_nil_iff.mp h).1.symm⟩
  | cons field fields ih =>
      obtain ⟨hfield, hfields⟩ := List.pairwise_cons.mp hdistinct
      -- The lists of the other fields may be chosen whatever the list of this one is.
      have hupdate (values : List String) (others : Nat → List String) :
          ((field :: fields).flatMap fun other =>
            (Function.update others field.number values other.number).map
              fun value => (other, value)) =
            (values.map fun value => (field, value)) ++ fields.flatMap fun other =>
              (others other.number).map fun value => (other, value) := by
        rw [List.flatMap_cons, Function.update_self]
        refine congrArg _ (List.flatMap_congr fun other hother => ?_)
        rw [Function.update_of_ne (Ne.symm (hfield other hother))]
      rw [List.flatMap_cons] at h
      rcases cut_append h with ⟨own, -, hown⟩ | ⟨later, rfl, hlater⟩
      · obtain ⟨values, -, -, rfl, -⟩ := List.map_eq_append_iff.mp hown.symm
        refine ⟨Function.update (fun _ => []) field.number values, ?_⟩
        rw [hupdate]
        simp
      · obtain ⟨shorter, hshorter⟩ := ih hfields hlater
        exact ⟨Function.update shorter field.number (lists field.number),
          by rw [hupdate, hshorter]⟩

/-- The first entries of a message are all entries of the message that they make up. -/
theorem entries_foldl_addEntry {message : Message kind} {entries : List (Field × String)}
    (h : entries <+: message.entries) :
    (entries.foldl addEntry (empty kind)).entries = entries := by
  obtain ⟨missing, hmissing⟩ := h
  obtain ⟨hascending, -⟩ := Field.isWellFormed_iff_pairwise.mp kind.isWellFormed_fields
  obtain ⟨shorter, hshorter⟩ := exists_lists_of_append (hascending.imp Nat.ne_of_lt) hmissing
  have hentries : (ofLists kind shorter).entries = entries := by
    rw [← hshorter, Message.entries]
    exact List.flatMap_congr fun field hfield => by rw [values_ofLists hfield]
  rw [← hentries, foldl_addEntry_entries]

/-! ### The sizes of values -/

/-- No value of the message has more bytes than `size`. -/
def FitsIn (message : Message kind) (size : Nat) : Prop :=
  ∀ field ∈ kind.fields, ∀ value ∈ message.values field.number, value.utf8ByteSize ≤ size

/-- No value of an entry is longer than what all values fit in. -/
theorem FitsIn.entries {message : Message kind} {size : Nat} (h : message.FitsIn size) :
    ∀ entry ∈ message.entries, entry.2.utf8ByteSize ≤ size := by
  intro entry hentry
  obtain ⟨hfield, hvalue⟩ := mem_entries_iff.mp hentry
  exact h entry.1 hfield entry.2 hvalue

end Message

end InferenceConfig
