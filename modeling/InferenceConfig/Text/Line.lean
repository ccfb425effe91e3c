import InferenceConfig.Unicode.Blank

/-!
# Lines of the Text Form

A document in text form is read line by line. A line is blank, or it is an entry
`name: "body"` with either sort of quotes and perhaps a comment behind it, or it is
malformed. White space may stand at both ends, around the colon and before the comment.
A backslash in a body keeps the character after it from ending the body, whether or not
the two are a supported escape.

## Main definitions

* `Line.split` — the lines of a text, without their ends;
* `Line.readBody?` — the body up to its closing quote;
* `Line.readEntry?` — name and body of an entry;
* `Line.ofChars` — what a line is.
-/

namespace InferenceConfig

/-- What a line of a text document is. -/
inductive Line where
  /-- White space only, or a comment. -/
  | blank
  /-- A field's name and the body between the quotes, with its escapes. -/
  | entry (name body : List Char)
  /-- Anything else. -/
  | malformed
  deriving DecidableEq, Repr

namespace Line

/-- The lines of a text. A line feed ends a line and takes a carriage return before it
along; what follows the last line feed is a line only if it is not empty. -/
def split : (text : List Char) → List (List Char)
  | [] => []
  | '\r' :: '\n' :: rest => [] :: split rest
  | c :: rest =>
    if c = '\n' then [] :: split rest
    else
      match split rest with
      | [] => [[c]]
      | line :: lines => (c :: line) :: lines

/-- Whether a name may start with the character: an ASCII letter or an underscore. -/
def isNameStart (c : Char) : Bool :=
  c.isAlpha || c == '_'

/-- Whether a name may go on with the character: an ASCII letter or digit, or an
underscore. -/
def isNameChar (c : Char) : Bool :=
  c.isAlphanum || c == '_'

/-- The body up to the first `quote` that no backslash precedes, and what follows it. -/
def readBody? (quote : Char) : (text : List Char) → Option (List Char × List Char)
  | [] => none
  | c :: rest =>
    if c = quote then some ([], rest)
    else if c = '\\' then
      match rest with
      | [] => none
      | escaped :: rest =>
        match readBody? quote rest with
        | none => none
        | some (body, rest) => some (c :: escaped :: body, rest)
    else
      match readBody? quote rest with
      | none => none
      | some (body, rest) => some (c :: body, rest)

/-- A body in either sort of quotes, and what follows it. -/
def readQuoted? : (text : List Char) → Option (List Char × List Char)
  | [] => none
  | quote :: rest =>
    if quote = '\x22' ∨ quote = '\x27' then readBody? quote rest else none

/-- Whether nothing but white space and a comment is left of a line. -/
def isDone (text : List Char) : Bool :=
  match dropBlanks text with
  | [] => true
  | c :: _ => c == '#'

/-- The name at the start of the text, which may be empty, and what follows it. -/
def readName : (text : List Char) → List Char × List Char
  | [] => ([], [])
  | c :: rest =>
    if isNameStart c then (c :: rest.takeWhile isNameChar, rest.dropWhile isNameChar)
    else ([], c :: rest)

/-- Name and body of the entry that the text is, if it is one. -/
def readEntry? (text : List Char) : Option (List Char × List Char) :=
  match readName (dropBlanks text) with
  | ([], _) => none
  | (name, rest) =>
    match dropBlanks rest with
    | [] => none
    | colon :: rest =>
      if colon ≠ ':' then none
      else
        match readQuoted? (dropBlanks rest) with
        | none => none
        | some (body, rest) => if isDone rest then some (name, body) else none

/-- What the line is. -/
def ofChars (line : List Char) : Line :=
  if isDone line then .blank
  else
    match readEntry? line with
    | none => .malformed
    | some (name, body) => .entry name body

end Line

end InferenceConfig
