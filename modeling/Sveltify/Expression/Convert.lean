import Sveltify.Component.Model
import Sveltify.Diagnostic
import Sveltify.Expression.Outdent
import Sveltify.Expression.Splice
import Sveltify.Hook
import Sveltify.Scope.Pattern
import Sveltify.Syntax.Module

namespace Sveltify.Expression

open Component Scope

/-!
# Converting expressions

An expression of a component keeps its source text but for these changes:

* a call of a setter becomes an assignment to its cell;
* a setter used as a value becomes an arrow function that assigns;
* `ref.current` becomes `ref`;
* names with a substitute are replaced by it.

A call of any other hook of React and JSX markup are refused.

* `newValue?`: where the value comes from that a call of a setter assigns;
* `convert`: the converted text of a node;
* `SetterUse`: a use of a setter as a value, which is worth a remark;
* `Memory`: the uses that have been remarked on. It is looked into each time a setter is met.
-/

/-- Texts that stand in for names; the first entry for a name counts. -/
abbrev Substitution := List (String × String)

/-- A setter used as a value, with the cell it belongs to. -/
structure SetterUse where
  node : Node
  cell : StateBinding
deriving Repr

/-- The remark about a setter used as a value. -/
def SetterUse.report (src : Source) (use : SetterUse) : Report :=
  let setter := use.cell.setter.getD ""
  let position := src.startOf use.node
  { severity := .info, stage := .lower, code := Code.setterAsValue
    message := s!"{setter} is passed as a value; it became an arrow function assigning {use.cell.name}"
    line := some position.line, column := some position.column
    construct := use.cell.setter }

/-- What is remembered while texts are converted one after another. -/
structure Memory where
  /-- The spans of the setters used as values that have been remarked on. -/
  remarked : List (Nat × Nat) := []
  /-- The uses that the conversion remarks on itself, in order. -/
  remarks : List SetterUse := []
deriving Repr

/-- Remark on a setter used as a value, unless its span has been remarked on. -/
def Memory.remark (m : Memory) (use : SetterUse) : Memory :=
  if m.remarked.contains use.node.span then m
  else { remarked := m.remarked ++ [use.node.span], remarks := m.remarks ++ [use] }

/-- A conversion remarks on setters used as values as it meets them, also if it fails in the end. -/
abbrev Conversion := EStateM Failure Memory

variable (src : Source)

/-! ### The cells of setters -/

/-- The cell whose setter is called at a span; of two cells the later one counts. -/
def calledCell? (model : Model) (span : Nat × Nat) : Option StateBinding :=
  model.state.values.reverse.find? (·.setterCalls.contains span)

/-- The cell whose setter is used as a value at a span; of two cells the later one counts. -/
def referencedCell? (model : Model) (span : Nat × Nat) : Option StateBinding :=
  model.state.values.reverse.find? (·.setterReferences.contains span)

/-! ### The value that a call of a setter assigns -/

/-- The node whose conversion is the new value of a cell. -/
structure NewValue where
  node : Node
  /-- What stands in for names in the conversion. -/
  substitution : Substitution
  /-- Is the node a function that has to be applied to the old value? -/
  isApplied : Bool

/-- The new value given by an updater function: its body if the parameter can be replaced by the
cell, else the function applied to the cell. -/
def updatedValue (cell : String) (subs : Substitution) (f : Node) : NewValue :=
  let applied : NewValue := ⟨f, subs, true⟩
  match f.field? "body" with
  | none => applied
  | some body =>
    if body.kind == "statement_block" || f.hasToken "async" then applied
    else
      match parametersOf f with
      -- The parameter stands for the old value, which the cell still has.
      | [] => ⟨body, subs, false⟩
      | [param] =>
        let pattern := patternOf param
        if pattern.kind == "identifier" then ⟨body, (src.text pattern, cell) :: subs, false⟩
        else applied
      | _ => applied

/-- The new value given by the argument of a setter. -/
def newValue? (cell : String) (subs : Substitution) (argument : Node) : Option NewValue :=
  argument.bare?.map fun inner =>
    if inner.isFunction then updatedValue src cell subs inner else ⟨argument, subs, false⟩

theorem size_updatedValue (cell : String) (subs : Substitution) (f : Node) :
    (updatedValue src cell subs f).node.size ≤ f.size := by
  unfold updatedValue
  split
  · exact Nat.le_refl _
  · rename_i body hbody
    have hlt := Node.size_field hbody
    split
    · exact Nat.le_refl _
    · split
      · exact Nat.le_of_lt hlt
      · simp only
        split
        · exact Nat.le_of_lt hlt
        · exact Nat.le_refl _
      · exact Nat.le_refl _

theorem size_newValue {cell : String} {subs : Substitution} {argument : Node} {v : NewValue}
    (h : newValue? src cell subs argument = some v) : v.node.size ≤ argument.size := by
  obtain ⟨inner, hinner, rfl⟩ := Option.map_eq_some_iff.1 h
  split
  · exact Nat.le_trans (size_updatedValue src cell subs inner) (Node.size_bare hinner)
  · exact Nat.le_refl _

theorem size_argumentsOf {c call : Node} (h : (Hook.argumentsOf call).head? = some c) :
    c.size < call.size := by
  have hmem := List.mem_of_head? h
  unfold Hook.argumentsOf at hmem
  cases harg : call.field? "arguments" with
  | none => simp [harg] at hmem
  | some args =>
    rw [harg] at hmem
    exact Nat.lt_trans (Node.size_namedChild hmem) (Node.size_field harg)

/-! ### Replacements -/

/-- The assignment of a value to a cell; where it is not a statement it stands in parentheses. -/
def assignment (cell value : String) (isStatement : Bool) : String :=
  if isStatement then s!"{cell} = {value}" else s!"({cell} = {value})"

/-- The arrow function that assigns its argument to a cell. -/
def assigner (cell : String) : String :=
  -- The parameter must not hide the cell.
  let param := if cell == "value" then "next" else "value"
  s!"({param}) => ({cell} = {param})"

/-- The replacement of a name. In an object a name that stands for a whole entry becomes an entry
with a value. -/
def entryFor (n : Node) (value : String) : String :=
  if n.kind == "shorthand_property_identifier" then
    let name := src.text n
    s!"{name}: {value}"
  else value

/-- The refusal of a hook in a place where it has no counterpart. -/
def misplacedHook (hook : HookCall) : Refusal where
  kind := .unsupported
  message := s!"{hook.name} cannot be converted in this position"
  place := src.place hook.node
  construct := some hook.name

/-- The refusal of markup in an expression. -/
def strayMarkup (n : Node) : Refusal where
  kind := .unsupported
  message := "JSX outside the returned markup cannot be converted"
  place := src.place n
  construct := some "JSX"

/-- The replacement of a name: the assigning function for a setter, or the substitute. -/
def replaceName (model : Model) (subs : Substitution) (n : Node) : Conversion (Option String) := do
  match referencedCell? model n.span with
  | some cell =>
    modify (·.remark ⟨n, cell⟩)
    return some (entryFor src n (assigner cell.name))
  | none => return (subs.lookup (src.text n)).map (entryFor src n)

/-- The ref of which the node is the current value. -/
def currentRef? (model : Model) (n : Node) : Option String :=
  match n.field? "object", n.field? "property" with
  | some object, some property =>
    let name := src.text object
    if object.kind == "identifier" && model.refs.contains name && src.text property == "current"
    then some name else none
  | _, _ => none

/-- Is the node a name that may be replaced? -/
def isName (n : Node) : Bool :=
  n.kind == "identifier" || n.kind == "shorthand_property_identifier"

/-- The replacement of a node that does not call a setter. -/
def replaceOther (model : Model) (subs : Substitution) (n : Node) :
    Conversion (Option String) := do
  if n.kind == "call_expression" then
    match Hook.ofCall? src n with
    | some hook =>
      if hook.kind == .custom then return none else throw (.refused (misplacedHook src hook))
    | none => return none
  else if isName n then replaceName src model subs n
  else if n.kind == "member_expression" then return currentRef? src model n
  else if n.isJsx then throw (.refused (strayMarkup src n))
  else return none

/-- The cell whose setter the node calls. -/
def setterCall? (model : Model) (n : Node) : Option StateBinding :=
  if n.kind == "call_expression" then calledCell? model n.span else none

/-! ### Conversion -/

/-- The converted text of a node. `isStatement` says whether the node itself stands as a
statement. -/
def convert (model : Model) (subs : Substitution) (isStatement : Bool) (n : Node) :
    Conversion String :=
  spliceNode src n.size (fun parent c _hc => do
    match setterCall? model c with
    | none => replaceOther src model subs c
    | some cell =>
      -- Only the place of the call itself counts, wherever the conversion started.
      let isStatement :=
        match parent with
        | none => isStatement
        | some p => p.kind == "expression_statement"
      match _harg : (Hook.argumentsOf c).head? with
      | none => return some (assignment cell.name "undefined" isStatement)
      | some argument =>
        match _hv : newValue? src cell.name subs argument with
        | none => throw .incomplete
        | some v =>
          -- The new value never stands as a statement, and may call setters in turn.
          let text ← convert model v.substitution false v.node
          let value := if v.isApplied then s!"({text})({cell.name})" else text
          return some (assignment cell.name value isStatement)) none n (Nat.le_refl _)
termination_by n.size
decreasing_by
  have := size_newValue src _hv
  have := size_argumentsOf _harg
  omega

/-- The lines of the converted text of a node, moved to the left margin. -/
def convertLines (model : Model) (isStatement : Bool) (n : Node) : Conversion (List String) := do
  return outdent src (← convert src model [] isStatement n) n

end Sveltify.Expression
