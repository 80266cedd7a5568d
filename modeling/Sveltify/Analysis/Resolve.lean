import Sveltify.Component.Model
import Sveltify.Diagnostic
import Sveltify.Scope.Reference

namespace Sveltify.Analysis

open Scope Component Render

/-!
# Names that are declared nowhere

* `usedExpressions`: the expressions of a render tree, each with the names bound around it;
* `checkedExpressions`: all expressions of a model that are checked;
* `reportUnresolved`: a warning for each name that is declared nowhere, at its first use.
-/

variable (src : Source)

/-- The names that a list binds for its items. -/
def listNames (head : ListHead) : List String :=
  boundNamesOf src head.item ++ (nonEmpty? head.index).toList
    ++ head.declarations.flatMap (bindingsWithin src)

/-- The values of attributes. -/
def attributeValues (attributes : List Attribute) : List Node := attributes.filterMap (·.value)

mutual

/-- The expressions of a render tree, each with the names bound around it. -/
def usedExpressions (bound : List String) : RenderNode → List (Node × List String)
  | .text _ => []
  | .expression e => [(e, bound)]
  | .rawHtml e => [(e, bound)]
  | .element head children =>
    (attributeValues head.attributes ++ head.events.map (·.handler)
      ++ head.refExpression.toList).map (·, bound) ++ usedExpressionsAll bound children
  | .conditional condition consequent alternate =>
    condition.toList.map (·, bound) ++ usedExpressions bound consequent
      ++ usedExpressionsOptional bound alternate
  | .list head body =>
    -- The list itself is read outside the names that it binds.
    let inner := bound ++ listNames src head
    head.iterable.toList.map (·, bound)
      ++ (head.declarations ++ head.key.toList).map (·, inner) ++ usedExpressions inner body
  | .component head slots =>
    (attributeValues head.props).map (·, bound) ++ passedExpressions bound slots
  | .slot _ _ arguments _ => arguments.map (·, bound)
  | .fragment children => usedExpressionsAll bound children
  | .unsupported _ _ _ => []

/-- The expressions of a list of render trees. -/
def usedExpressionsAll (bound : List String) : List RenderNode → List (Node × List String)
  | [] => []
  | r :: rs => usedExpressions bound r ++ usedExpressionsAll bound rs

/-- The expressions of an optional render tree. -/
def usedExpressionsOptional (bound : List String) :
    Option RenderNode → List (Node × List String)
  | none => []
  | some r => usedExpressions bound r

/-- The expressions of the markup handed to a component instance. -/
def passedExpressions (bound : List String) : List SlotContent → List (Node × List String)
  | [] => []
  | .mk _ parameters body :: slots =>
    usedExpressions (bound ++ boundNamesOf src parameters) body ++ passedExpressions bound slots

end

/-- The expressions of a model whose names have to be declared, in the order of checking. -/
def checkedExpressions (m : Model) : List (Node × List String) :=
  m.derived.values.map (fun d => (d.expression, []))
    ++ m.effects.map (fun e => (e.callback, []))
    ++ m.snippets.flatMap (fun s => usedExpressions src (boundNamesOf src s.parameters) s.body)
    ++ usedExpressionsOptional src [] m.renderTree

/-- Warn about the first use of a name that is declared nowhere. -/
def unresolvedReport (reference : Node) : Report :=
  let place := src.startOf reference
  let name := src.text reference
  { severity := .warning, stage := .analyze, code := Code.unresolvedReference
    message := s!"'{name}' is not declared in this file"
    line := some place.line, column := some place.column, construct := some name }

/-- The first uses of unknown names in a list of expressions; a name is named only once. -/
def unresolvedIn (known : List String) :
    List String → List (Node × List String) → List Node
  | _, [] => []
  | reported, (n, extra) :: rest =>
    let found := (unresolved src known extra n).filter fun r => !reported.contains (src.text r)
    found ++ unresolvedIn known (reported ++ found.map src.text) rest

/-- The names that the parts of a model may use, given those of its module and its body. -/
def visibleNames (m : Model) (chosen : String) (moduleNames declared : List String) :
    List String :=
  moduleNames ++ declared ++ [m.name, chosen]
    ++ m.state.values.flatMap (fun b =>
      b.name :: (nonEmpty? b.setter).toList ++ (nonEmpty? b.dispatch).toList)
    ++ m.derived.values.flatMap (·.names)
    ++ m.refs.keys
    ++ m.contexts.flatMap (fun u => boundNamesOf src u.binding)
    ++ m.locals.flatMap (·.names)
    ++ m.snippets.map (·.name)

/-- A warning for each name that a model uses and that is declared nowhere. -/
def reportUnresolved (m : Model) (known : List String) : List Report :=
  (unresolvedIn src known [] (checkedExpressions src m)).map (unresolvedReport src)

end Sveltify.Analysis
