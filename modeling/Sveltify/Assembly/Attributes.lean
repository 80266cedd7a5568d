import Sveltify.Assembly.Progress
import Sveltify.Expression.Literal
import Sveltify.Render.Expression
import Sveltify.Svelte.Escape
import Sveltify.Svelte.Markup
import Sveltify.Svelte.Style
import Sveltify.Svelte.Template

namespace Sveltify.Assembly

open Component Expression Scope Svelte Text
open Render (ElementHead EventBinding InstanceHead innerExpression?)

/-!
# Attributes

* `attributeFor`, `eventFor`: an attribute and an event attribute in markup;
* `styleDirectives`: a style object as one directive for each property;
* `Controls`, `controls`: fields whose value comes from a cell of state and goes back to it are
  bound to the cell;
* `elementAttributes`: all attributes of an element, in source order;
* `instanceAttributes`: all attributes of a component instance.
-/

variable (src : Source) (model : Model)

/-! ### Single attributes -/

/-- An attribute with a value in braces; one that is named like its value is written short. -/
def valued (kind : AttributeKind) (name value : String) : TemplateAttribute :=
  if value = name then { kind := .shorthand, name, value := some value }
  else { kind, name, value := some value }

/-- An event attribute of an element. -/
def eventFor (tag : String) (inputType : Option String) (e : EventBinding) :
    Assembling TemplateAttribute := do
  return valued .event (eventName e.name tag inputType) (← expressionText src model e.handler)

/-- An attribute that is no event, under the name `name`. -/
def attributeFor (name : String) (a : Render.Attribute) : Assembling TemplateAttribute := do
  if a.isSpread then
    return { kind := .spread, value := some (← expressionText? src model a.value) }
  else
    match a.value with
    | none => return { kind := .boolean, name }
    | some value =>
      if value.kind == "string" then
        let text := escapeAttribute (withoutEnds (src.text value))
        return { kind := .static, name, value := some text }
      else
        match innerExpression? value with
        -- Empty braces are like no value.
        | none => return { kind := .boolean, name }
        | some e => return valued .expression name (← expressionText src model e)

/-- An attribute of an element. -/
def domAttribute (a : Render.Attribute) : Assembling TemplateAttribute :=
  attributeFor src model (attributeName a.name) a

/-! ### Styles -/

/-- The text without its first dot. -/
def withoutDot (cs : List Char) : List Char := cs.erase '.'

/-- Is the text a number, with any number of minus signs in front? -/
def isSignedNumber (s : String) : Bool :=
  let digits := withoutDot (s.toList.dropWhile (· == '-'))
  !digits.isEmpty && digits.all isDigit

/-- Is the value of a style property a number? -/
def isStyleNumber (value : Node) : Bool :=
  value.kind == "number" || value.kind == "unary_expression" && isSignedNumber (src.text value)

/-- The refusal of a style property without a fixed name. -/
def computedStyle (pair : Node) : Refusal where
  kind := .unsupported
  message := "computed style keys cannot be converted"
  place := src.place pair
  construct := some "style"

/-- The directive for one entry of a style object. -/
def styleDirective (pair : Node) : Assembling TemplateAttribute := do
  match (pair.field? "key").filter (·.kind != "computed_property_name"), pair.field? "value" with
  | some key, some value =>
    let property := unquote (src.text key)
    let text ← match stringLiteral? src value with
      | some literal =>
        let escaped := escapeAttribute literal
        pure s!"\"{escaped}\""
      | none =>
        if isStyleNumber src value then
          let number := styleNumber property (src.text value)
          pure s!"\"{number}\""
        else
          let e ← expressionText src model value
          pure s!"\x7b{e}\x7d"
    return { kind := .style, name := styleProperty property, value := some text }
  | _, _ => throw (.refused (computedStyle src pair))

/-- The object literal that an attribute value consists of, if all its entries are plain pairs. -/
def styleObject? (e : Node) : Option Node :=
  let target := e.withoutParens
  if target.kind == "object" && target.namedChildren.all (·.kind == "pair") then some target
  else none

/-- The remark about a style that is no object literal. -/
def wholeStyle (n : Node) : Report :=
  remarkOn src Code.analysisAmbiguity
    "style is not an object literal; Svelte expects a CSS string here" n "style"

/-- The attributes for a style. -/
def styleDirectives (a : Render.Attribute) : Assembling (List TemplateAttribute) := do
  match (a.value.filter (·.kind != "string")).bind innerExpression? with
  | none => return [← domAttribute src model a]
  | some e =>
    match styleObject? e with
    | some object => object.namedChildren.mapM (styleDirective src model)
    | none =>
      report (wholeStyle src a.node)
      return [← domAttribute src model a]

/-! ### Fields bound to state -/

/-- The text of an attribute that is a string. -/
def fixedAttribute? (attributes : List Render.Attribute) (name : String) : Option String :=
  attributes.findSome? fun a =>
    if a.name == name then
      (a.value.filter (·.kind == "string")).map fun v => withoutEnds (src.text v)
    else none

/-- The single call that a handler with one parameter makes, with the parameter. -/
def handlerCall? (handler : Node) : Option (Node × Node) :=
  let function := handler.withoutParens
  if !function.isFunction then none
  else
    match parametersOf function, function.field? "body" with
    | [param], some body =>
      let event := patternOf param
      let expression :=
        if body.kind == "statement_block" then
          match body.namedChildren with
          | [statement] =>
            if statement.kind == "expression_statement" then statement.firstNamed? else none
          | _ => none
        else some body
      if event.kind == "identifier" then expression.map fun e => (event, e.withoutParens) else none
    | _, _ => none

/-- Does a handler set a cell to the property `property` of the element that the event came
from? -/
def setsFromTarget (setter property : String) (handler : Node) : Bool :=
  match handlerCall? handler with
  | none => false
  | some (event, call) =>
    let name := src.text event
    call.kind == "call_expression"
      && (call.field? "function").any (src.text · == setter)
      && match Hook.argumentsOf call with
        | [argument] =>
          [s!"{name}.target.{property}", s!"{name}.currentTarget.{property}"].contains
            (squeeze (src.text argument))
        | _ => false

/-- The properties of a field that are bound to cells, and the handlers that this replaces. -/
structure Controls where
  bindings : List (String × String) := []
  handlers : List Node := []

/-- The elements whose value can be bound. -/
def bindableTags : List String := ["input", "textarea", "select"]

/-- The cell that a property of a field shows, if the property can be bound to it, and the handler
that sets the cell. -/
def control? (h : ElementHead) (property : String) : Option (StateBinding × EventBinding) := do
  let a ← h.attributes.find? fun a => a.name == property && !a.isSpread
  let e ← a.value.bind innerExpression?
  -- The field has to show the cell as it is, not something computed from it.
  let cell ← model.state.get? (src.text e.withoutParens)
  let setter ← cell.setter
  let event ← h.events.find? fun e =>
    (e.name == "onChange" || e.name == "onInput") && setsFromTarget src setter property e.handler
  return (cell, event)

/-- The properties of an element that may be bound. -/
def bindableProperties (tag : String) (inputType : Option String) : List String :=
  if bindableTags.contains tag then
    "value" :: if inputType == some "checkbox" || inputType == some "radio" then ["checked"] else []
  else []

/-- The properties of an element that are bound to cells. -/
def controls (h : ElementHead) (inputType : Option String) : Controls :=
  let found := (bindableProperties h.tag inputType).filterMap fun property =>
    (control? src model h property).map fun (cell, event) => (property, cell, event)
  { bindings := found.map fun (property, cell, _) => (property, cell.name)
    handlers := found.map fun (_, _, event) => event.node }

/-! ### All attributes -/

/-- An attribute of an element, event or not. -/
inductive Item where
  | plain (a : Render.Attribute)
  | event (e : EventBinding)

/-- The node of an attribute. -/
def Item.node : Item → Node
  | .plain a => a.node
  | .event e => e.node

/-- The attributes and events of an element in source order. -/
def itemsOf (h : ElementHead) : List Item :=
  (h.attributes.map Item.plain ++ h.events.map Item.event).mergeSort fun a b =>
    decide (a.node.start ≤ b.node.start)

/-- What an attribute of an element becomes. -/
def itemAttributes (h : ElementHead) (inputType : Option String) (c : Controls) :
    Item → Assembling (List TemplateAttribute)
  | .event e => do
    -- The binding does what this handler did.
    if c.handlers.any e.node.same then return []
    else return [← eventFor src model h.tag inputType e]
  | .plain a => do
    match c.bindings.lookup a.name with
    | some cell => return [{ kind := .bind, name := a.name, value := some cell }]
    | none =>
      if a.name == "style" && !a.isSpread then styleDirectives src model a
      else return [← domAttribute src model a]

/-- Attributes, and the placeholders that stand before their element for those without
counterpart. -/
structure Attributes where
  before : List TemplateNode := []
  attributes : List TemplateAttribute := []

/-- Add the attributes that `build` yields, or a placeholder for `n` if they have no counterpart. -/
def addAttributes (n : Node) (build : Assembling (List TemplateAttribute)) (done : Attributes) :
    Assembling Attributes :=
  orElse
    (do return { done with attributes := done.attributes ++ (← build) })
    (fun r => do
      let p ← leave src n r.message r.construct ""
      return { done with before := done.before ++ [.placeholder p] })

/-- All attributes of an element, its ref at the end. -/
def elementAttributes (h : ElementHead) : Assembling Attributes := do
  let inputType := fixedAttribute? src h.attributes "type"
  let c := controls src model h inputType
  let done ← (itemsOf h).foldlM (fun done item =>
    addAttributes src item.node (itemAttributes src model h inputType c item) done) {}
  let bound := h.ref.toList.map fun name =>
    { kind := .bind, name := "this", value := some name : TemplateAttribute }
  -- A ref that is no name is left behind on its own, and the element is kept.
  let callback ← h.refExpression.toList.mapM fun e => do
    let p ← leave src e
      "callback refs have no direct Svelte equivalent; use bind:this or an attachment"
      (some "ref") ""
    return TemplateNode.placeholder p
  return { before := done.before ++ callback, attributes := done.attributes ++ bound }

/-- The ref of the component that an attribute of an instance hands on. -/
def instanceRef? (a : Render.Attribute) : Option String :=
  if a.name == "ref" then
    let target := (a.value.bind innerExpression?).map fun e => src.text e.withoutParens
    target.filter model.refs.contains
  else none

/-- What an attribute of a component instance becomes. -/
def instanceAttribute (a : Render.Attribute) : Assembling TemplateAttribute :=
  match instanceRef? src model a with
  | some name => return { kind := .bind, name := "ref", value := some name }
  | none => attributeFor src model a.name a

/-- All attributes of a component instance. -/
def instanceAttributes (h : InstanceHead) : Assembling Attributes :=
  h.props.foldlM (fun done a =>
    addAttributes src a.node (do return [← instanceAttribute src model a]) done) {}

end Sveltify.Assembly
