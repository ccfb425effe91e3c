import InferenceConfig.Json.Reader
import InferenceConfig.Proofs.Json.Value
import InferenceConfig.Proofs.Message

/-!
# Messages That JSON Values Denote

What a JSON value means as a message is said here without reference to bytes. An object gives
each field the list under its name: there is at most one member with that name, and its value
is an array of strings. An array gives the fields their lists in the order of the table. A
field for which nothing is given is empty. No other value is a message.

Beside this stands the computation that the reader makes, on values: it goes through the
members or elements once and collects lists. Both say the same.

## Main definitions

* `Json.Value.Denotes` — the value is the message;
* `Json.Value.IsMessage` — the values that denote a message of a kind;
* `Json.Value.knownMembers` — the members that belong to fields;
* `Json.Value.message?` — the message that is collected from a value.

## Main results

* `Json.Value.message?_eq_some_iff` — the message that is collected is the one denoted;
* `Json.Value.exists_denotes_iff` — which values denote a message;
* `Json.Value.denotes_object_iff_of_perm` — neither the order of the members matters, nor the
  members that belong to no field.
-/

namespace InferenceConfig

namespace Json

namespace Value

/-- The array of the strings. -/
def ofStrings (strings : List String) : Value :=
  .array (strings.map .string)

/-- The values of the members with the key, in order. -/
def underKey (key : String) (members : List (String × Value)) : List Value :=
  (members.filter fun member => member.1 == key).map Prod.snd

/-- The members whose keys are names of fields, in order. -/
def knownMembers (kind : Kind) (members : List (String × Value)) : List (String × Value) :=
  members.filter fun member => (kind.fieldWithName? member.1).isSome

/-- Nothing gives the empty list, and one array of strings gives these. -/
inductive Gives : (values : List Value) → (strings : List String) → Prop
  | absent : Gives [] []
  | present {strings : List String} : Gives [ofStrings strings] strings

/-- The value denotes the message. -/
def Denotes {kind : Kind} (message : Message kind) : (value : Value) → Prop
  | .object members =>
    ∀ field ∈ kind.fields,
      Gives (underKey field.name members) (message.values field.number)
  | .array elements =>
    elements.length ≤ kind.fields.length ∧
      ∀ (i : Nat) (field : Field), kind.fields[i]? = some field →
        Gives elements[i]?.toList (message.values field.number)
  | _ => False

/-- The value is an array of strings. -/
def AreStrings (value : Value) : Prop :=
  ∃ strings, value = ofStrings strings

/-- The values that denote messages: objects where the name of each field occurs at most once
as a key, with an array of strings, and arrays of at most as many arrays of strings as there
are fields. -/
def IsMessage (kind : Kind) : (value : Value) → Prop
  | .object members =>
    ∀ field ∈ kind.fields,
      (underKey field.name members).length ≤ 1 ∧
        ∀ value ∈ underKey field.name members, value.AreStrings
  | .array elements =>
    elements.length ≤ kind.fields.length ∧ ∀ element ∈ elements, element.AreStrings
  | _ => False

/-! ### Collecting lists -/

/-- The string, if the value is one. -/
def string? : Value → Option String
  | .string value => some value
  | _ => none

/-- The strings, if the value is an array of strings. -/
def strings? : Value → Option (List String)
  | .array elements => elements.mapM string?
  | _ => none

/-- The lists found before, and those of the members. -/
def collectMembers (kind : Kind) (found : Lists) :
    (members : List (String × Value)) → Option Lists
  | [] => some found
  | (key, value) :: members =>
    match kind.fieldWithName? key with
    | none => collectMembers kind found members
    | some field =>
      if found.any fun entry => entry.1.number == field.number then none
      else
        value.strings?.bind fun strings =>
          collectMembers kind (found ++ [(field, strings)]) members

/-- The lists of the elements, one for each field. -/
def collectElements : (fields : List Field) → (elements : List Value) → Option Lists
  | _, [] => some []
  | [], _ :: _ => none
  | field :: fields, element :: elements =>
    element.strings?.bind fun strings =>
      (collectElements fields elements).map fun lists => (field, strings) :: lists

/-- The lists that are collected from the value. -/
def lists? (kind : Kind) : Value → Option Lists
  | .object members => collectMembers kind [] members
  | .array elements => collectElements kind.fields elements
  | _ => none

/-- The message of the lists that are collected from the value. -/
def message? (kind : Kind) (value : Value) : Option (Message kind) :=
  (value.lists? kind).map (Lists.toMessage kind)

/-! ### Arrays of strings -/

/-- Strings are taken from elements one after the other. -/
theorem mapM_string?_cons (element : Value) (elements : List Value) :
    (element :: elements).mapM string? =
      element.string?.bind fun first => (elements.mapM string?).map (first :: ·) := by
  rw [List.mapM_cons]
  cases element.string? with
  | none => rfl
  | some first => cases elements.mapM string? <;> rfl

/-- Only a string is taken for a string. -/
theorem string?_eq_some_iff {value : Value} {text : String} :
    value.string? = some text ↔ value = .string text := by
  cases value <;> simp [string?]

/-- The strings that are taken from elements are all of the elements. Induction on the elements. -/
theorem mapM_string?_eq_some_iff {elements : List Value} {strings : List String} :
    elements.mapM string? = some strings ↔ elements = strings.map .string := by
  induction elements generalizing strings with
  | nil => cases strings <;> simp
  | cons element elements ih =>
      rw [mapM_string?_cons]
      constructor
      · intro h
        obtain ⟨first, hfirst, h⟩ := Option.bind_eq_some_iff.mp h
        obtain ⟨others, hothers, rfl⟩ := Option.map_eq_some_iff.mp h
        rw [string?_eq_some_iff.mp hfirst, ih.mp hothers, List.map_cons]
      · intro h
        cases strings with
        | nil => simp at h
        | cons first others =>
            rw [List.map_cons, List.cons.injEq] at h
            obtain ⟨rfl, h⟩ := h
            rw [ih.mpr h]
            rfl

/-- Only an array of strings is taken for a list. -/
theorem strings?_eq_some_iff {value : Value} {strings : List String} :
    value.strings? = some strings ↔ value = ofStrings strings := by
  cases value with
  | array elements => simp [strings?, ofStrings, mapM_string?_eq_some_iff]
  | null | boolean | number | string | object => simp [strings?, ofStrings]

/-- Different lists are different values. -/
theorem ofStrings_injective : Function.Injective ofStrings := by
  intro first second h
  rw [← Option.some_inj, ← strings?_eq_some_iff.mpr h, strings?_eq_some_iff.mpr rfl]

/-- No value gives the empty list only. -/
theorem gives_nil_iff {strings : List String} : Gives [] strings ↔ strings = [] := by
  constructor
  · rintro ⟨⟩
    rfl
  · rintro rfl
    exact .absent

/-- One value gives the list of which it is the array. -/
theorem gives_singleton_iff {value : Value} {strings : List String} :
    Gives [value] strings ↔ value = ofStrings strings := by
  constructor
  · rintro ⟨⟩
    rfl
  · rintro rfl
    exact .present

/-- Two values give nothing. -/
theorem not_gives_of_length {values : List Value} {strings : List String}
    (h : 1 < values.length) : ¬ Gives values strings := by
  rintro (_ | _) <;> simp at h

/-- Values give a list exactly if there is at most one, and it is an array of strings. -/
theorem exists_gives_iff {values : List Value} :
    (∃ strings, Gives values strings) ↔
      values.length ≤ 1 ∧ ∀ value ∈ values, value.AreStrings := by
  match values with
  | [] => simp [gives_nil_iff]
  | [value] => simp [gives_singleton_iff, AreStrings]
  | first :: second :: values => simp [not_gives_of_length]

end Value

/-! ### Lists -/

namespace Lists

variable {kind : Kind} {field : Field} {lists : Lists}

/-- The lists for the number, in order. -/
def under (lists : Lists) (number : Nat) : List (List String) :=
  (lists.filter fun entry => entry.1.number == number).map Prod.snd

/-- A list that is added at the end comes last under its own number, and under no other one. -/
theorem under_append (lists : Lists) (field : Field) (list : List String) (number : Nat) :
    Lists.under (lists ++ [(field, list)]) number =
      lists.under number ++ if field.number = number then [list] else [] := by
  rw [under, List.filter_append, List.map_append]
  by_cases h : field.number = number
  · simp [under, h]
  · simp [under, h]

/-- A number has been found exactly if there is a list for it. -/
theorem any_eq_true_iff {number : Nat} :
    (lists.any fun entry => entry.1.number == number) = true ↔ lists.under number ≠ [] := by
  simp [under, List.filter_eq_nil_iff]

/-- The first list for a number is the list of the message. -/
theorem values_toMessage (lists : Lists) (h : field ∈ kind.fields) :
    (lists.toMessage kind).values field.number =
      (lists.under field.number).head?.getD [] := by
  rw [toMessage, Message.values_ofLists h, under, List.head?_map, List.head?_filter]

end Lists

namespace Value

variable {kind : Kind} {field : Field} {message : Message kind}

/-! ### Objects -/

/-- A member comes first under its own key, and under no other one. -/
theorem underKey_cons (key name : String) (value : Value) (members : List (String × Value)) :
    underKey name ((key, value) :: members) =
      (if key = name then [value] else []) ++ underKey name members := by
  by_cases h : key = name
  · simp [underKey, h]
  · simp [underKey, h]

/-- What the lists found before and the members give a field. -/
def given (found : Lists) (members : List (String × Value)) (field : Field) : List Value :=
  (found.under field.number).map ofStrings ++ underKey field.name members

/-- A member whose key is not the name of a field gives nothing. -/
theorem given_cons_of_unknown {key : String} (hkey : kind.fieldWithName? key = none)
    (hfield : field ∈ kind.fields) (found : Lists) (value : Value)
    (members : List (String × Value)) :
    given found ((key, value) :: members) field = given found members field := by
  have hne : key ≠ field.name := by
    rintro rfl
    simp [Kind.fieldWithName?_eq_some_iff.mpr ⟨hfield, rfl⟩] at hkey
  rw [given, underKey_cons, if_neg hne, List.nil_append, given]

/-- A list that has been read moves from the members to what was found before. -/
theorem given_append_singleton {owner : Field} (howner : owner ∈ kind.fields)
    (hfield : field ∈ kind.fields) (found : Lists) (strings : List String)
    (members : List (String × Value)) :
    given (found ++ [(owner, strings)]) members field =
      given found ((owner.name, ofStrings strings) :: members) field := by
  have hsame := Kind.name_eq_iff howner hfield
  rw [given, given, Lists.under_append, underKey_cons, List.map_append, List.append_assoc]
  by_cases h : owner.name = field.name
  · rw [if_pos h, if_pos (hsame.mp h), List.map_singleton]
  · rw [if_neg h, if_neg (mt hsame.mpr h), List.map_nil]

/-- A member of a field is one of the values given to the field, behind what was found
before. -/
theorem given_cons_self (found : Lists) (owner : Field) (value : Value)
    (members : List (String × Value)) :
    given found ((owner.name, value) :: members) owner =
      (found.under owner.number).map ofStrings ++ value :: underKey owner.name members := by
  rw [given, underKey_cons, if_pos rfl, List.singleton_append]

/-- When no member is left, a message has what was found. -/
theorem gives_given_nil_iff {found : Lists} (hfield : field ∈ kind.fields)
    (hfound : (found.under field.number).length ≤ 1) :
    Gives (given found [] field) (message.values field.number) ↔
      (found.toMessage kind).values field.number = message.values field.number := by
  rw [found.values_toMessage hfield, given]
  match found.under field.number, hfound with
  | [], _ => exact gives_nil_iff.trans eq_comm
  | [_], _ => exact gives_singleton_iff.trans ofStrings_injective.eq_iff

/-- A message is collected exactly if it has what was found before and what the members give,
at most one list for each field in all. Induction on the members: each moves to what was found
before, or belongs to no field. -/
theorem collectMembers_eq_some_iff (found : Lists) (members : List (String × Value))
    (hfound : ∀ field ∈ kind.fields, (found.under field.number).length ≤ 1) :
    (collectMembers kind found members).map (Lists.toMessage kind) = some message ↔
      ∀ field ∈ kind.fields,
        Gives (given found members field) (message.values field.number) := by
  induction members generalizing found with
  | nil =>
      rw [collectMembers, Option.map_some, Option.some_inj]
      constructor
      · rintro rfl field hfield
        exact (gives_given_nil_iff hfield (hfound field hfield)).mpr rfl
      · intro h
        exact Message.ext_values fun field hfield =>
          (gives_given_nil_iff hfield (hfound field hfield)).mp (h field hfield)
  | cons member members ih =>
      obtain ⟨key, value⟩ := member
      rw [collectMembers]
      cases hkey : kind.fieldWithName? key with
      | none =>
          rw [ih found hfound]
          exact forall₂_congr fun field hfield => by
            rw [given_cons_of_unknown hkey hfield]
      | some owner =>
          obtain ⟨howner, rfl⟩ := Kind.fieldWithName?_eq_some_iff.mp hkey
          by_cases hany : (found.any fun entry => entry.1.number == owner.number) = true
          · -- The field has a list already, and this member would be a second one.
            have htwo : 0 < (found.under owner.number).length :=
              List.length_pos_iff.mpr (Lists.any_eq_true_iff.mp hany)
            simp only [hany, if_true, Option.map_none, reduceCtorEq, false_iff]
            intro h
            refine not_gives_of_length ?_ (h owner howner)
            rw [given_cons_self, List.length_append, List.length_map, List.length_cons]
            omega
          · have hempty : found.under owner.number = [] := by
              simpa using mt Lists.any_eq_true_iff.mpr hany
            simp only [hany, Bool.false_eq_true, if_false]
            cases hstrings : value.strings? with
            | none =>
                simp only [Option.bind_none, Option.map_none, reduceCtorEq, false_iff]
                intro h
                obtain ⟨-, hall⟩ := exists_gives_iff.mp ⟨_, h owner howner⟩
                obtain ⟨strings, hvalue⟩ := hall value (by simp [given_cons_self])
                simp [strings?_eq_some_iff.mpr hvalue] at hstrings
            | some strings =>
                obtain rfl := strings?_eq_some_iff.mp hstrings
                rw [Option.bind_some, ih]
                · exact forall₂_congr fun field hfield => by
                    rw [given_append_singleton howner hfield]
                · intro field hfield
                  rw [Lists.under_append]
                  split
                  · next hnumber => simp [← hnumber, hempty]
                  · rw [List.append_nil]
                    exact hfound field hfield

/-! ### Arrays -/

/-- The list for the number, empty if there is none. -/
theorem head?_under_cons (field : Field) (strings : List String) (lists : Lists)
    (number : Nat) :
    (Lists.under ((field, strings) :: lists) number).head?.getD [] =
      if field.number = number then strings else (lists.under number).head?.getD [] := by
  by_cases h : field.number = number
  · simp [Lists.under, h]
  · simp [Lists.under, h]

/-- Without elements, all lists are empty. -/
theorem gives_none_iff (fields : List Field) (values : Nat → List String) :
    (∀ field ∈ fields, [] = values field.number) ↔
      ∀ (i : Nat) (field : Field), fields[i]? = some field →
        Gives [] (values field.number) := by
  constructor
  · intro h i field hi
    exact gives_nil_iff.mpr (h field (List.mem_of_getElem? hi)).symm
  · intro h field hfield
    obtain ⟨i, hi⟩ := List.mem_iff_getElem?.mp hfield
    exact (gives_nil_iff.mp (h i field hi)).symm

/-- What is said of the places of a list is said of the first place and of the later ones. -/
theorem forall_getElem?_cons {first : Field} {fields : List Field}
    {P : Nat → Field → Prop} :
    (∀ (i : Nat) (field : Field), (first :: fields)[i]? = some field → P i field) ↔
      P 0 first ∧
        ∀ (i : Nat) (field : Field), fields[i]? = some field → P (i + 1) field := by
  constructor
  · exact fun h => ⟨h 0 first rfl, fun i field hi => h (i + 1) field hi⟩
  · rintro ⟨hfirst, hrest⟩ i field hi
    cases i with
    | zero => exact Option.some.inj hi ▸ hfirst
    | succ i => exact hrest i field hi

/-- The first list belongs to the first field and, as the numbers are distinct, to no other. -/
theorem forall_head?_under_cons {first : Field} {fields : List Field}
    (hfirst : ∀ field ∈ fields, first.number ≠ field.number) (strings : List String)
    (lists : Lists) (values : Nat → List String) :
    (∀ field ∈ first :: fields, (Lists.under ((first, strings) :: lists)
        field.number).head?.getD [] = values field.number) ↔
      strings = values first.number ∧
        ∀ field ∈ fields, (lists.under field.number).head?.getD [] = values field.number := by
  rw [List.forall_mem_cons, head?_under_cons, if_pos rfl]
  refine and_congr_right fun _ => forall₂_congr fun field hfield => ?_
  rw [head?_under_cons, if_neg (hfirst field hfield)]

/-- Lists are collected exactly from at most as many arrays of strings as there are fields,
and each field gets the list in its place. Induction on the fields. -/
theorem collectElements_iff {fields : List Field} (elements : List Value)
    (values : Nat → List String)
    (hdistinct : fields.Pairwise fun earlier later => earlier.number ≠ later.number) :
    (∃ lists, collectElements fields elements = some lists ∧
        ∀ field ∈ fields, (lists.under field.number).head?.getD [] = values field.number) ↔
      elements.length ≤ fields.length ∧
        ∀ (i : Nat) (field : Field), fields[i]? = some field →
          Gives elements[i]?.toList (values field.number) := by
  induction fields generalizing elements with
  | nil => cases elements <;> simp [collectElements]
  | cons first fields ih =>
      obtain ⟨hfirst, hdistinct⟩ := List.pairwise_cons.mp hdistinct
      cases elements with
      | nil =>
          simpa [collectElements, Lists.under] using gives_none_iff (first :: fields) values
      | cons element elements =>
          rw [collectElements, forall_getElem?_cons]
          cases hstrings : element.strings? with
          | none =>
              simp only [Option.bind_none, reduceCtorEq, false_and, exists_false, false_iff]
              rintro ⟨-, helement, -⟩
              simp [strings?_eq_some_iff.mpr (gives_singleton_iff.mp helement)] at hstrings
          | some strings =>
              obtain rfl := strings?_eq_some_iff.mp hstrings
              have hgives : Gives [ofStrings strings] (values first.number) ↔
                  strings = values first.number :=
                gives_singleton_iff.trans ofStrings_injective.eq_iff
              simp only [Option.bind_some, Option.map_eq_some_iff, exists_exists_and_eq_and,
                forall_head?_under_cons hfirst, List.getElem?_cons_zero, Option.toList_some,
                hgives, List.getElem?_cons_succ, List.length_cons, Nat.add_le_add_iff_right]
              rw [and_left_comm, ← ih elements hdistinct]
              simp only [and_left_comm, exists_and_left]

/-! ### Messages -/

/-- The message that is collected from a value is the message that the value denotes. -/
theorem message?_eq_some_iff {value : Value} :
    value.message? kind = some message ↔ value.Denotes message := by
  cases value with
  | object members =>
      rw [message?, lists?, collectMembers_eq_some_iff [] members (by simp [Lists.under])]
      rfl
  | array elements =>
      obtain ⟨hascending, -⟩ := Field.isWellFormed_iff_pairwise.mp kind.isWellFormed_fields
      rw [Denotes, ← collectElements_iff elements message.values
        (hascending.imp Nat.ne_of_lt), message?, lists?, Option.map_eq_some_iff]
      refine exists_congr fun lists => and_congr_right fun _ => ?_
      constructor
      · rintro rfl field hfield
        rw [lists.values_toMessage hfield]
      · intro h
        exact Message.ext_values fun field hfield => by
          rw [lists.values_toMessage hfield, h field hfield]
  | null | boolean | number | string => simp [message?, lists?, Denotes]

/-- A value denotes at most one message of a kind. -/
theorem Denotes.unique {value : Value} {other : Message kind}
    (h : value.Denotes message) (hother : value.Denotes other) : message = other :=
  Option.some.inj ((message?_eq_some_iff.mpr h).symm.trans (message?_eq_some_iff.mpr hother))

/-- The places in an array give every field a list exactly if all elements are arrays of
strings. -/
theorem forall_exists_gives_iff {elements : List Value}
    (hlength : elements.length ≤ kind.fields.length) :
    (∀ field ∈ kind.fields, ∃ strings, ∀ i : Nat, kind.fields[i]? = some field →
        Gives elements[i]?.toList strings) ↔
      ∀ element ∈ elements, element.AreStrings := by
  constructor
  · intro h element helement
    obtain ⟨i, hi, rfl⟩ := List.mem_iff_getElem.mp helement
    have hfield := List.getElem?_eq_getElem (Nat.lt_of_lt_of_le hi hlength)
    obtain ⟨strings, hstrings⟩ := h _ (List.mem_of_getElem? hfield)
    have hgives := hstrings i hfield
    rw [List.getElem?_eq_getElem hi] at hgives
    exact ⟨strings, gives_singleton_iff.mp hgives⟩
  · intro h field hfield
    have hnodup : kind.fields.Nodup := by cases kind <;> decide
    obtain ⟨i, hi⟩ := List.mem_iff_getElem?.mp hfield
    obtain ⟨strings, hstrings⟩ : ∃ strings, Gives elements[i]?.toList strings := by
      rw [exists_gives_iff]
      cases helement : elements[i]? with
      | none => simp
      | some element => simpa using h element (List.mem_of_getElem? helement)
    refine ⟨strings, fun j hj => ?_⟩
    have hlt : i < kind.fields.length := (List.getElem?_eq_some_iff.mp hi).1
    rwa [← (List.getElem?_inj hlt hnodup).mp (hi.trans hj.symm)]

/-- Which values denote a message. -/
theorem exists_denotes_iff {value : Value} :
    (∃ message : Message kind, value.Denotes message) ↔ value.IsMessage kind := by
  cases value with
  | object members =>
      simp only [Denotes, IsMessage, ← exists_gives_iff]
      exact Message.exists_values_iff
  | array elements =>
      simp only [Denotes, IsMessage, exists_and_left]
      refine and_congr_right fun hlength => ?_
      rw [← forall_exists_gives_iff hlength, ← Message.exists_values_iff]
      refine exists_congr fun message => ?_
      constructor
      · intro h field _ i hi
        exact h i field hi
      · intro h i field hi
        exact h field (List.mem_of_getElem? hi) i hi
  | null | boolean | number | string => simp [Denotes, IsMessage]

/-- What gives a list gives it in any order: it is one value at most. -/
theorem Gives.perm {values others : List Value} {strings : List String}
    (hperm : values.Perm others) (h : Gives values strings) : Gives others strings := by
  cases h with
  | absent =>
      rw [List.nil_perm.mp hperm]
      exact .absent
  | present =>
      rw [← List.singleton_perm.mp hperm]
      exact .present

/-- What stands under the name of a field stands among the members whose keys are names of
fields. -/
theorem underKey_knownMembers (hfield : field ∈ kind.fields)
    (members : List (String × Value)) :
    underKey field.name (knownMembers kind members) = underKey field.name members := by
  rw [underKey, knownMembers, List.filter_filter, underKey]
  congr 1
  refine List.filter_congr fun member _ => ?_
  by_cases hname : member.1 = field.name
  · rw [hname, Kind.fieldWithName?_eq_some_iff.mpr ⟨hfield, rfl⟩]
    simp
  · simp [hname]

/-- Neither the order of the members matters, nor which members there are whose keys are not
names of fields, nor what their values are. -/
theorem denotes_object_iff_of_perm {members others : List (String × Value)}
    (hperm : (knownMembers kind members).Perm (knownMembers kind others)) :
    (object members).Denotes message ↔ (object others).Denotes message := by
  have hunder (field : Field) (hfield : field ∈ kind.fields) :
      (underKey field.name members).Perm (underKey field.name others) := by
    rw [← underKey_knownMembers hfield members, ← underKey_knownMembers hfield others]
    exact (hperm.filter _).map _
  constructor
  · intro h field hfield
    exact (h field hfield).perm (hunder field hfield)
  · intro h field hfield
    exact (h field hfield).perm (hunder field hfield).symm

end Value

end Json

end InferenceConfig
