import InferenceConfig.Unicode.Printable

/-!
# Quoted Text

Messages and reports show strings in double quotes. Quotes, backslashes and the common
controls are written as short escapes, and every other character that cannot be shown as
`\u{…}` with its code point in hexadecimal digits, so that quoted texts of different strings
differ.

## Main definitions

* `Quoted.escape` — how one character is shown;
* `Quoted.ofString`, `Quoted.ofList` — a string, and a list of strings in brackets.
-/

namespace InferenceConfig

namespace Quoted

/-- The characters that show one character between double quotes. -/
def escape (c : Char) : List Char :=
  if c = '\x00' then ['\\', '0']
  else if c = '\t' then ['\\', 't']
  else if c = '\r' then ['\\', 'r']
  else if c = '\n' then ['\\', 'n']
  else if c = '\x22' then ['\\', '\x22']
  else if c = '\\' then ['\\', '\\']
  else if [attaching, fillers, unprintable].any (CodeRange.includes · c.toNat) then
    ['\\', 'u', '\x7b'] ++ Nat.toDigits 16 c.toNat ++ ['\x7d']
  else [c]

/-- A text in double quotes. -/
def ofChars (text : List Char) : String :=
  String.ofList ('\x22' :: (text.flatMap escape ++ ['\x22']))

/-- A string in double quotes. -/
def ofString (s : String) : String :=
  ofChars s.toList

/-- A list of strings: each in double quotes, with commas between them, in brackets. -/
def ofList (strings : List String) : String :=
  "[" ++ String.intercalate ", " (strings.map ofString) ++ "]"

end Quoted

end InferenceConfig
