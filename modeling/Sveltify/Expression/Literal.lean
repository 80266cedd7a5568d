import Sveltify.Syntax.Preorder
import Sveltify.Text.Blank
import Sveltify.Text.Quoted

namespace Sveltify.Expression

open Text

/-!
# Literals and parameter lists as text

* `stringLiteral?`: the contents of a string literal in which every character stands for itself;
* `parametersText`: a parameter list without the parentheses around it;
* `describe`: a node in words.
-/

variable (src : Source)

/-- Is the node a string, or a template without substitutions? -/
def isPlainString (n : Node) : Bool :=
  n.kind == "string" ||
    (n.kind == "template_string" && (n.childOfKind? ["template_substitution"]).isNone)

/-- The contents of a string literal without escapes. -/
def stringLiteral? (n : Node) : Option String :=
  let literal := n.withoutParens
  if isPlainString literal then
    let contents := withoutEnds (src.text literal)
    if contents.toList.contains '\\' then none else some contents
  else none

/-- Is the text enclosed in parentheses? -/
def isParenthesised (s : String) : Bool :=
  s.toList.head? == some '(' && s.toList.getLast? == some ')'

/-- The text of a parameter list, without parentheses. -/
def parametersText : Option Node → String
  | none => ""
  | some params =>
    let text := strip (src.text params)
    if params.kind == "formal_parameters" && isParenthesised text then strip (withoutEnds text)
    else text

/-- The text, cut to forty characters. -/
def abridge (s : String) : String :=
  if 40 < s.length then String.ofList (s.toList.take 37) ++ "..." else s

/-- The kind, position and text of a node. -/
def describe (n : Node) : String :=
  let position := src.startOf n
  let kind := quoted n.kind
  let snippet := quoted (abridge (src.text n))
  s!"SyntaxNode({kind}, {position.line}:{position.column}, {snippet})"

end Sveltify.Expression
