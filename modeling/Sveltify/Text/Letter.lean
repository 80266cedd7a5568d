import Sveltify.Text.CaseRuns
import Sveltify.Text.WordRuns

namespace Sveltify.Text

/-!
# Letters, digits and words

Character classes in the sense of the Unicode standard. Each class answers for ASCII by a plain
comparison and looks only the other characters up in its runs.

* `isUpper`, `isLower`: letters by case;
* `isAlnum`, `isWord`: letters and numbers, and the same with the underscore;
* `isDecimal`, `isDigit`: decimal digits, and everything that has a digit value;
* `decimalValue`: the value of a decimal digit.
-/

/-- Is the character an ASCII capital `A` to `Z`? -/
def isCapital (c : Char) : Bool := decide (0x41 ≤ c.toNat) && decide (c.toNat ≤ 0x5A)

/-- Is the character an ASCII small letter `a` to `z`? -/
def isSmall (c : Char) : Bool := decide (0x61 ≤ c.toNat) && decide (c.toNat ≤ 0x7A)

/-- Is the character an ASCII digit? -/
def isAsciiDigit (c : Char) : Bool := decide (0x30 ≤ c.toNat) && decide (c.toNat ≤ 0x39)

/-- Is the character uppercase? -/
def isUpper (c : Char) : Bool :=
  if c.toNat < 0x80 then isCapital c else covered upperRuns c

/-- Is the character lowercase? -/
def isLower (c : Char) : Bool :=
  if c.toNat < 0x80 then isSmall c else covered lowerRuns c

/-- Is the character a letter or a number? -/
def isAlnum (c : Char) : Bool :=
  if c.toNat < 0x80 then isCapital c || isSmall c || isAsciiDigit c else covered alnumRuns c

/-- Is the character part of a word: a letter, a number or an underscore? -/
def isWord (c : Char) : Bool := c == '_' || isAlnum c

/-- Is the character a decimal digit? -/
def isDecimal (c : Char) : Bool :=
  if c.toNat < 0x80 then isAsciiDigit c else covered decimalRuns c

/-- Has the character a digit value? -/
def isDigit (c : Char) : Bool :=
  if c.toNat < 0x80 then isAsciiDigit c else covered digitRuns c

/-- The value of a decimal digit: its distance from the zero of its row. -/
def decimalValue (c : Char) : Nat :=
  if c.toNat < 0x80 then c.toNat - 0x30
  else
    match decimalRuns.find? (·.holds c.toNat) with
    | some r => (c.toNat - r.first) % 10
    | none => 0

/-- Does the text start with a lowercase letter? -/
def startsLower (s : String) : Bool := s.toList.head?.any isLower

end Sveltify.Text
