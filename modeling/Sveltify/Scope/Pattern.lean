import Sveltify.Syntax.Preorder
import Sveltify.Text.Blank

namespace Sveltify.Scope

open Text

/-!
# Binding patterns and parameters

* `boundNames`: the names that a declaration or parameter pattern binds, in order;
* `parametersOf`: the parameters of a function;
* `patternOf`, `annotationOf`: the pattern and the type inside a typed parameter.
-/

variable (src : Source)

/-- The roles under which a pattern of a given kind holds the pattern that binds. -/
def patternRole? (kind : String) : Option String :=
  match kind with
  | "required_parameter" | "optional_parameter" => some "pattern"
  | "assignment_pattern" | "object_assignment_pattern" => some "left"
  | "pair_pattern" => some "value"
  | _ => none

/-- Patterns that are made of several patterns. -/
def compoundPatterns : List String :=
  ["rest_pattern", "object_pattern", "array_pattern", "formal_parameters"]

/-- The names that a pattern binds. -/
def boundNames (p : Node) : List String :=
  if p.kind == "identifier" || p.kind == "shorthand_property_identifier_pattern" then [src.text p]
  else
    match patternRole? p.kind with
    | some role =>
      match _h : p.field? role with
      | some inner => boundNames inner
      | none => []
    | none =>
      if compoundPatterns.contains p.kind then
        p.namedChildren.attach.flatMap fun ⟨c, _⟩ => boundNames c
      else []
termination_by p.size
decreasing_by
  · exact Node.size_field _h
  · exact Node.size_namedChild ‹_›

/-- The names that an optional pattern binds. -/
def boundNamesOf (p : Option Node) : List String := (p.map (boundNames src)).getD []

/-- The parameters of a function: the single one without parentheses, or those inside them. -/
def parametersOf (f : Node) : List Node :=
  match f.field? "parameter" with
  | some single => [single]
  | none => ((f.field? "parameters").map Node.namedChildren).getD []

/-- Is the node a parameter that may carry a type? -/
def isTypedParameter (p : Node) : Bool :=
  p.kind == "required_parameter" || p.kind == "optional_parameter"

/-- The pattern of a parameter. -/
def patternOf (p : Node) : Node :=
  if isTypedParameter p then (p.field? "pattern").getD p else p

/-- The text of a type annotation without its colon. -/
def annotationText (typeNode : Node) : String :=
  strip (stripStartOf (· == ':') (src.text typeNode))

/-- The type of a parameter, if it has one. -/
def annotationOf (p : Node) : Option String :=
  if isTypedParameter p then (p.field? "type").map (annotationText src) else none

end Sveltify.Scope
