import InferenceConfig.Field

/-!
# Configuration Messages

A bulk-inference run is configured by two messages. `ModelSpec` names the signatures of
the served model to run and the tags of the graph to load; `DataSpec` names the splits
of the examples to process. Both are nothing but lists of strings, so every format is
written once, for a `Message` of any `Kind`, in terms of the kind's field table.

## Main definitions

* `ModelSpec`, `DataSpec`, `Kind` and `Message` — the messages;
* `Kind.fields`, `Kind.reserved` — the field table and the retired numbers of a kind;
* `Message.values?`, `Message.values` — the list stored for a number;
* `Message.withValues` — the message with another list for a number;
* `Message.push?`, `Message.append` — the two ways in which a message grows;
* `Message.entries` — all values of a message, each with its field, in field order.

## Main statements

* `Message.values_ofLists`, `Message.ext_values` — a message is the lists of its fields;
* `Message.values?_eq_none_iff` — a list is stored for exactly the assigned numbers.
-/

namespace InferenceConfig

/-- Which signatures of a served model to run, and which of its graphs to load. The order
of the names carries no meaning, but it is kept, and so are repetitions. -/
structure ModelSpec where
  /-- The names of the signatures to run. -/
  signatureNames : List String := []
  /-- The tags that select the graph. -/
  tags : List String := []
  deriving DecidableEq, Repr, Inhabited

/-- Which splits of the examples to process; an empty list means all of them. -/
structure DataSpec where
  /-- The names of the splits. -/
  exampleSplits : List String := []
  deriving DecidableEq, Repr, Inhabited

/-- The two kinds of messages. -/
inductive Kind where
  /-- Messages that select from a model. -/
  | model
  /-- Messages that select from the data. -/
  | data
  deriving DecidableEq, Repr, Inhabited

/-- The messages of a kind. -/
abbrev Message : Kind → Type
  | .model => ModelSpec
  | .data => DataSpec

namespace Kind

/-- The unqualified name of the kind's message type. -/
def title : Kind → String
  | .model => "ModelSpec"
  | .data => "DataSpec"

/-- The fully qualified name of the kind's message type. -/
def name (kind : Kind) : String :=
  "tfx.components.inference." ++ kind.title

/-- The field table: every assigned field, by ascending number. -/
def fields : Kind → List Field
  | .model => [⟨"model_signature_name", 2⟩, ⟨"tag", 5⟩]
  | .data => [⟨"example_splits", 2⟩]

/-- The numbers that are retired and may never be read or assigned. -/
def reserved : Kind → List Nat
  | .model => [1, 3, 4, 6]
  | .data => [1, 3, 4]

/-- The field with this number, if the kind assigns it. -/
def fieldWithNumber? (kind : Kind) (number : Nat) : Option Field :=
  Field.withNumber? kind.fields number

/-- The field with this name, if the kind has it. -/
def fieldWithName? (kind : Kind) (name : String) : Option Field :=
  Field.withName? kind.fields name

/-- Whether the number is retired. -/
def isReserved (kind : Kind) (number : Nat) : Bool :=
  kind.reserved.contains number

end Kind

namespace Message

/-- The message whose list for each assigned number is `lists number`. -/
def ofLists : (kind : Kind) → (lists : Nat → List String) → Message kind
  | .model, lists => ⟨lists 2, lists 5⟩
  | .data, lists => ⟨lists 2⟩

/-- The message without any value. -/
def empty (kind : Kind) : Message kind :=
  ofLists kind fun _ => []

/-- The list stored for a number, if the message stores one for it. -/
def values? : {kind : Kind} → Message kind → (number : Nat) → Option (List String)
  | .model, message, number =>
    if number = 2 then some message.signatureNames
    else if number = 5 then some message.tags
    else none
  | .data, message, number =>
    if number = 2 then some message.exampleSplits else none

variable {kind : Kind}

/-- The list stored for a number, empty for a number that is not assigned. -/
def values (message : Message kind) (number : Nat) : List String :=
  (message.values? number).getD []

/-- The message with `list` put in the place of the list for `number`. -/
def withValues (message : Message kind) (number : Nat) (list : List String) : Message kind :=
  ofLists kind fun n => if n = number then list else message.values n

/-- The message with one more value at the end of the list for `number`, if the message
stores a list for that number. -/
def push? (message : Message kind) (number : Nat) (value : String) :
    Option (Message kind) :=
  (message.values? number).map fun list => message.withValues number (list ++ [value])

/-- The field-wise concatenation of two messages. -/
def append (first second : Message kind) : Message kind :=
  ofLists kind fun number => first.values number ++ second.values number

/-- All values of the message, each with its field: fields in table order, and the values
of a field in the order in which they are stored. -/
def entries (message : Message kind) : List (Field × String) :=
  kind.fields.flatMap fun field =>
    (message.values field.number).map fun value => (field, value)

/-! ### A message is its lists -/

/-- A message made of lists stores the given list for every field. -/
theorem values_ofLists {lists : Nat → List String} {field : Field}
    (h : field ∈ kind.fields) :
    (ofLists kind lists).values field.number = lists field.number := by
  cases kind with
  | model =>
    simp only [Kind.fields, List.mem_cons, List.not_mem_nil, or_false] at h
    rcases h with rfl | rfl <;> rfl
  | data =>
    simp only [Kind.fields, List.mem_cons, List.not_mem_nil, or_false] at h
    subst h
    rfl

/-- Messages with the same list for every field are equal. -/
theorem ext_values {first second : Message kind}
    (h : ∀ field ∈ kind.fields, first.values field.number = second.values field.number) :
    first = second := by
  cases kind with
  | model =>
    obtain ⟨names, tags⟩ := first
    obtain ⟨names', tags'⟩ := second
    obtain rfl : names = names' := h ⟨"model_signature_name", 2⟩ (by simp [Kind.fields])
    obtain rfl : tags = tags' := h ⟨"tag", 5⟩ (by simp [Kind.fields])
    rfl
  | data =>
    obtain ⟨splits⟩ := first
    obtain ⟨splits'⟩ := second
    obtain rfl : splits = splits' := h ⟨"example_splits", 2⟩ (by simp [Kind.fields])
    rfl

/-- A message stores a list for exactly the assigned numbers. -/
theorem values?_eq_none_iff {message : Message kind} {number : Nat} :
    message.values? number = none ↔ kind.fieldWithNumber? number = none := by
  cases kind with
  | model =>
    by_cases hnames : number = 2
    · subst hnames
      exact ⟨nofun, nofun⟩
    by_cases htags : number = 5
    · subst htags
      exact ⟨nofun, nofun⟩
    have hnone : Kind.fieldWithNumber? .model number = none := by
      simp [Kind.fieldWithNumber?, Field.withNumber?, Kind.fields, Ne.symm hnames, Ne.symm htags]
    exact iff_of_true ((if_neg hnames).trans (if_neg htags)) hnone
  | data =>
    by_cases hsplits : number = 2
    · subst hsplits
      exact ⟨nofun, nofun⟩
    have hnone : Kind.fieldWithNumber? .data number = none := by
      simp [Kind.fieldWithNumber?, Field.withNumber?, Kind.fields, Ne.symm hsplits]
    exact iff_of_true (if_neg hsplits) hnone

end Message

/-- Messages of a kind are compared list by list. -/
instance : (kind : Kind) → DecidableEq (Message kind)
  | .model => inferInstanceAs (DecidableEq ModelSpec)
  | .data => inferInstanceAs (DecidableEq DataSpec)

end InferenceConfig
