import InferenceConfig.Message

/-!
# Writing Messages as JSON

A message is written as an object with one member for each field of the table, one item a
line and two spaces for each level. An empty list takes no lines of its own. A line feed
ends the document. Only quotes, backslashes and control characters are escaped.

## Main definitions

* `Json.escapeChar` — how a character is written in a string;
* `Json.writeList` — a list of strings, as the value of a member;
* `Json.write` — the document of a message.
-/

namespace InferenceConfig

namespace Json

/-- A lower-case hexadecimal digit. -/
def hexDigit (n : Nat) : Char :=
  if n < 10 then Char.ofNat (0x30 + n) else Char.ofNat (0x61 + (n - 10))

/-- How a character is written between double quotes. -/
def escapeChar (c : Char) : List Char :=
  if c = '\x22' then ['\\', '\x22']
  else if c = '\\' then ['\\', '\\']
  else if c = '\x08' then ['\\', 'b']
  else if c = '\x0c' then ['\\', 'f']
  else if c = '\n' then ['\\', 'n']
  else if c = '\r' then ['\\', 'r']
  else if c = '\t' then ['\\', 't']
  else if c.toNat < 0x20 then
    ['\\', 'u', '0', '0', hexDigit (c.toNat / 16), hexDigit (c.toNat % 16)]
  else [c]

/-- A string in double quotes. -/
def writeString (value : List Char) : List Char :=
  '\x22' :: (value.flatMap escapeChar ++ ['\x22'])

/-- Items on lines of their own, indented by `indent` spaces, with commas between them. -/
def writeLines (indent : Nat) : (items : List (List Char)) → List Char
  | [] => ['\n']
  | [item] => '\n' :: (List.replicate indent ' ' ++ item ++ ['\n'])
  | item :: items =>
    '\n' :: (List.replicate indent ' ' ++ item ++ ',' :: writeLines indent items)

/-- A list of strings as the value of a member. -/
def writeList (values : List String) : List Char :=
  if values.isEmpty then ['[', ']']
  else
    '[' :: (writeLines 4 (values.map fun value => writeString value.toList)
      ++ [' ', ' ', ']'])

/-- The member of a field with its list. -/
def writeMember (field : Field) (values : List String) : List Char :=
  writeString field.name.toList ++ (':' :: ' ' :: writeList values)

/-- The document of a message. -/
def write {kind : Kind} (message : Message kind) : List Char :=
  let members := kind.fields.map fun field =>
    writeMember field (message.values field.number)
  '\x7b' :: (writeLines 2 members ++ ['\x7d', '\n'])

end Json

end InferenceConfig
