import Sveltify.Text.Blank
import Sveltify.Text.Line

namespace Sveltify.Text

/-!
# Removing a common margin

* `commonStart`: the longest common beginning of two lists;
* `margin`: the longest beginning of spaces and tabs shared by every line that has other
  characters;
* `dedent`: the lines without their margin; lines of only spaces and tabs become empty.
-/

/-- The longest common beginning of two lists. -/
def commonStart : List Char → List Char → List Char
  | a :: as, b :: bs => if a = b then a :: commonStart as bs else []
  | _, _ => []

/-- The margin of a list of lines, given what the earlier lines share. -/
def marginFrom : Option (List Char) → List (List Char) → List Char
  | m, [] => m.getD []
  | m, l :: ls =>
    if l.all isIndent then marginFrom m ls
    else
      let indent := l.takeWhile isIndent
      marginFrom (some (match m with | none => indent | some k => commonStart k indent)) ls

/-- The longest beginning of spaces and tabs shared by all lines that are not blank. -/
def margin (ls : List (List Char)) : List Char := marginFrom none ls

/-- The lines without their common margin. -/
def dedent (ls : List String) : List String :=
  let ls := ls.map String.toList
  let width := (margin ls).length
  ls.map fun l => String.ofList (if l.all isIndent then [] else l.drop width)

end Sveltify.Text
