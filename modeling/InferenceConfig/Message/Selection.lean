import InferenceConfig.Message

/-!
# What a Message Selects

A `ModelSpec` selects the heads of a model by the *set* of its signature names and the
graph by its tags, with a default for each; a `DataSpec` selects the splits that it
names, or all of them when it names none.

## Main definitions

* `SignatureSelection`, `ModelSpec.signatureSelection` — default, single or multi head;
* `ModelSpec.signatureSet` — the distinct names, ascending by code points;
* `ModelSpec.effectiveSignatureNames`, `ModelSpec.effectiveTags` — the lists with their
  defaults filled in;
* `DataSpec.includes`, `DataSpec.select` — the filter on the names of splits.
-/

namespace InferenceConfig

/-- How a model is to be run, as its signature names decide. -/
inductive SignatureSelection where
  /-- No name is given: the default signature, with a single head. -/
  | default
  /-- All given names are this one. -/
  | single (name : String)
  /-- Two or more distinct names, ascending by code points. -/
  | multi (names : List String)
  deriving DecidableEq, Repr, Inhabited

/-- Puts a name into an ascending list of distinct names, unless it is there already. -/
def insertDistinct (name : String) : List String → List String
  | [] => [name]
  | head :: rest =>
    if name < head then name :: head :: rest
    else if name = head then head :: rest
    else head :: insertDistinct name rest

namespace ModelSpec

/-- The signature that is run when none is named. -/
def defaultSignatureName : String := "serving_default"

/-- The tag of the graph that is loaded when none is named. -/
def defaultTag : String := "serve"

/-- The distinct signature names, ascending by code points. -/
def signatureSet (spec : ModelSpec) : List String :=
  spec.signatureNames.foldr insertDistinct []

/-- The selection that the set of signature names stands for. -/
def signatureSelection (spec : ModelSpec) : SignatureSelection :=
  match spec.signatureSet with
  | [] => .default
  | [name] => .single name
  | names => .multi names

/-- Whether two different signatures are named. -/
def isMultiHead (spec : ModelSpec) : Bool :=
  match spec.signatureSelection with
  | .multi _ => true
  | _ => false

/-- The signatures that are run, as stored, or the default one. -/
def effectiveSignatureNames (spec : ModelSpec) : List String :=
  if spec.signatureNames.isEmpty then [defaultSignatureName] else spec.signatureNames

/-- The tags that are loaded, as stored, or the default one. -/
def effectiveTags (spec : ModelSpec) : List String :=
  if spec.tags.isEmpty then [defaultTag] else spec.tags

/-- The message with one more signature name at the end. -/
def withSignatureName (spec : ModelSpec) (name : String) : ModelSpec :=
  { spec with signatureNames := spec.signatureNames ++ [name] }

/-- The message with one more tag at the end. -/
def withTag (spec : ModelSpec) (tag : String) : ModelSpec :=
  { spec with tags := spec.tags ++ [tag] }

end ModelSpec

namespace DataSpec

/-- Whether no split is named, which means that all are processed. -/
def processesAllSplits (spec : DataSpec) : Bool :=
  spec.exampleSplits.isEmpty

/-- Whether the split is processed. -/
def includes (spec : DataSpec) (split : String) : Bool :=
  spec.processesAllSplits || spec.exampleSplits.contains split

/-- The available splits that are processed, in their own order and with their own
repetitions. -/
def select (spec : DataSpec) (available : List String) : List String :=
  available.filter spec.includes

/-- The message with one more split at the end. -/
def withSplit (spec : DataSpec) (split : String) : DataSpec :=
  { spec with exampleSplits := spec.exampleSplits ++ [split] }

end DataSpec

end InferenceConfig
