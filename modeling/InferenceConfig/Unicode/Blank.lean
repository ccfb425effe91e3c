/-!
# White Space

There is one notion of white space: the characters with the property White_Space
of the Unicode standard, which are more than those of `Char.isWhitespace`.

## Main definitions

* `isBlank` — whether a character is white space;
* `dropBlanks` — a text without the white space at its start;
* `trimBlanks` — a text without the white space at both ends.
-/

namespace InferenceConfig

/-- Whether the character has the property White_Space. -/
def isBlank (c : Char) : Bool :=
  let n := c.toNat
  (0x9 ≤ n && n ≤ 0xD) || n == 0x20 || n == 0x85 || n == 0xA0 || n == 0x1680
    || (0x2000 ≤ n && n ≤ 0x200A) || n == 0x2028 || n == 0x2029 || n == 0x202F
    || n == 0x205F || n == 0x3000

/-- The text from its first character on that is not white space. -/
def dropBlanks (text : List Char) : List Char :=
  text.dropWhile isBlank

/-- The text between its first and its last character that is not white space. -/
def trimBlanks (text : List Char) : List Char :=
  (dropBlanks (dropBlanks text).reverse).reverse

end InferenceConfig
