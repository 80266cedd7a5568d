import Sveltify.Syntax.Preorder
import Sveltify.Text.Blank
import Sveltify.Text.Line

namespace Sveltify.Expression

open Text

/-!
# Moving text to the left margin

Text taken out of an indented place keeps the indentation of that place on every line but the
first. Outdenting takes it off again.

* `lineIndent`: how far the line is indented on which a node starts;
* `isProtected`: does a line lie inside a template literal, where blanks count?
* `outdent`: the lines of a text without the indentation of the node it came from.
-/

variable (src : Source)

/-- The octets of a space and a tab. -/
def isIndentOctet (b : UInt8) : Bool := b == 0x20 || b == 0x09

/-- The number of spaces and tabs at the start of the line on which the node starts. -/
def lineIndent (n : Node) : Nat :=
  ((Source.lastLine (src.bytes.take n.start)).takeWhile isIndentOctet).length

/-- The list without its leading spaces and tabs, at most `width` of them. -/
def dropIndent : Nat → List Char → List Char
  | width + 1, c :: cs => if isIndent c then dropIndent width cs else c :: cs
  | _, cs => cs

/-- Is the line `offset` lines below the start of `n` a later line of a template literal? -/
def isProtected (n : Node) (offset : Nat) : Bool :=
  n.preorder.any fun literal =>
    literal.kind == "template_string" &&
      (src.locate literal).laterLines.contains (offset + (src.startOf n).line)

/-- A later line of a text, without indentation and trailing blanks unless it is protected. -/
def outdentLine (n : Node) (offset : Nat) (line : String) : String :=
  if isProtected src n offset then line
  else stripEnd (String.ofList (dropIndent (lineIndent src n) line.toList))

/-- The lines of a text that came from a node, moved to the left margin. -/
def outdent (text : String) (n : Node) : List String :=
  match lines text with
  | first :: rest@(_ :: _) =>
    stripEnd first :: rest.mapIdx fun i line => outdentLine src n (i + 1) line
  -- A single line is not even stripped.
  | single => single

/-- The text moved to the left margin. -/
def outdented (text : String) (n : Node) : String := unlines (outdent src text n)

end Sveltify.Expression
