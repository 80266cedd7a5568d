import Sveltify.Text.Run

namespace Sveltify.Text

/-!
# Blank characters

Which characters count as blank, and how blanks are taken off a text.

* `isBlank`: the Unicode property `White_Space` together with the four information separators
  U+001C to U+001F;
* `stripStartOf`, `stripEndOf`, `stripOf`: take a class of characters off the ends of a text;
* `strip`, `stripEnd`: the same for blanks;
* `squeeze`: drop every blank;
* `unquote`, `withoutEnds`: the contents of a literal.
-/

/-- The blank characters as runs of code points. -/
def blankRuns : List Run :=
  [⟨0x09, 0x0D, 1⟩, ⟨0x1C, 0x20, 1⟩, ⟨0x85, 0x85, 1⟩, ⟨0xA0, 0xA0, 1⟩, ⟨0x1680, 0x1680, 1⟩,
   ⟨0x2000, 0x200A, 1⟩, ⟨0x2028, 0x2029, 1⟩, ⟨0x202F, 0x202F, 1⟩, ⟨0x205F, 0x205F, 1⟩,
   ⟨0x3000, 0x3000, 1⟩]

/-- Is the character blank? -/
def isBlank (c : Char) : Bool := covered blankRuns c

/-- A space or a tab, the two characters that indent a line. -/
def isIndent (c : Char) : Bool := c == ' ' || c == '\t'

/-! ### Taking a class of characters off the ends -/

/-- The list without its longest final stretch of characters in the class `p`. -/
def dropEndWhile (p : Char → Bool) (cs : List Char) : List Char :=
  (cs.reverse.dropWhile p).reverse

/-- The text without its leading characters of the class `p`. -/
def stripStartOf (p : Char → Bool) (s : String) : String :=
  String.ofList (s.toList.dropWhile p)

/-- The text without its trailing characters of the class `p`. -/
def stripEndOf (p : Char → Bool) (s : String) : String :=
  String.ofList (dropEndWhile p s.toList)

/-- The text without the characters of the class `p` at either end. -/
def stripOf (p : Char → Bool) (s : String) : String :=
  String.ofList (dropEndWhile p (s.toList.dropWhile p))

/-- The text without the blanks at either end. -/
def strip (s : String) : String := stripOf isBlank s

/-- The text without the blanks at its end. -/
def stripEnd (s : String) : String := stripEndOf isBlank s

/-- The text without any of its blanks. -/
def squeeze (s : String) : String :=
  String.ofList (s.toList.filter fun c => !isBlank c)

/-- Is the text empty or blank throughout? -/
def isAllBlank (s : String) : Bool := s.toList.all isBlank

/-- A quotation mark of a string literal: `'` or `"`. -/
def isQuote (c : Char) : Bool := c == '\'' || c == '"'

/-- A string literal without its quotation marks. -/
def unquote (s : String) : String := stripOf isQuote s

/-- The text without its first and its last character. -/
def withoutEnds (s : String) : String := String.ofList (s.toList.drop 1).dropLast

end Sveltify.Text
