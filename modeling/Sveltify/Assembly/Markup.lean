import Sveltify.Assembly.Attributes
import Sveltify.Assembly.IndexName
import Sveltify.Scope.Reference

namespace Sveltify.Assembly

open Component Expression Scope Svelte Text
open Render (ElementHead InstanceHead ListHead RenderNode Snippet SlotContent)

/-!
# Markup

The render tree of a component as markup.

* `nodeMarkup`, `nodesMarkup`: a piece of a render tree. A piece that turns out to have no
  counterpart becomes a placeholder;
* `alternateMarkup`: what a condition shows where it does not hold, as further branches;
* `snippetMarkup`: a named piece of markup.
-/

variable (src : Source) (model : Model)

/-! ### Pieces without other pieces in them -/

/-- Markup, or a placeholder for the node `anchor` if it has no counterpart. -/
def orPlaceholder (anchor : Option Node) (build : Assembling (List TemplateNode)) :
    Assembling (List TemplateNode) :=
  orElse build fun r =>
    match anchor with
    | some n => do return [.placeholder (← leave src n r.message r.construct "")]
    -- With no node to stand for, the refusal goes on to the construct around it.
    | none => throw (.refused r)

/-- A value shown as text. -/
def valueMarkup (e : Node) : Assembling (List TemplateNode) :=
  match stringLiteral? src e with
  | some literal => return [.text (escapeText literal)]
  | none => return [.expression (← expressionText src model e)]

/-- The place where handed-in markup is shown. -/
def slotMarkup (callee : String) (arguments : List Node) (isOptional : Bool) :
    Assembling (List TemplateNode) := do
  let arguments := ", ".intercalate (← arguments.mapM (expressionText src model))
  -- Markup that the component is handed may be missing.
  let call := if isOptional then "?." else ""
  return [.render s!"{callee}{call}({arguments})"]

/-! ### Lists -/

/-- The names of a component that a list index must not take. -/
def reservedNames : List String := model.reactiveNames ++ model.locals.flatMap (·.names)

/-- A name for the index of a list. -/
def indexFor (h : ListHead) : String :=
  freshIndex (reservedNames model ++ boundNamesOf src h.item
    ++ h.declarations.flatMap (bindingsWithin src))

/-- The warning about a list without keys. -/
def missingKey (h : ListHead) (index : String) : Report :=
  let r : Refusal :=
    { kind := .missingKey
      message := s!"list items have no key; the each block is keyed by index '{index}'"
      place := src.place h.node
      construct := some ".map()" }
  r.report .lower .warning

/-- The index and the key of a list. A list without keys is keyed by its index. -/
def listKey (h : ListHead) : Assembling (Option String × String) := do
  match h.key with
  | some key => return (h.index, ← expressionText src model key)
  | none =>
    let index := h.index.getD (indexFor src model h)
    report (missingKey src h index)
    return (some index, index)

/-- The declarations that are made for each item of a list. -/
def listConstants (h : ListHead) : Assembling (List TemplateNode) :=
  let declarators := h.declarations.flatMap fun d =>
    d.namedChildren.filter (·.kind == "variable_declarator")
  declarators.mapM fun d => do return .constant (← converted src model d)

/-- A list, given the markup of its items. -/
def listMarkup (h : ListHead) (body : Assembling (List TemplateNode)) :
    Assembling (List TemplateNode) := do
  let item := (h.item.map src.text).getD "_"
  let (index, key) ← listKey src model h
  let constants ← listConstants src model h
  let content ← body
  -- The list is converted last, so a refusal here drops the content that is done already.
  let expression ← expressionText? src model h.iterable
  return [.each expression item index (some key) (constants ++ content)]

/-! ### Elements and component instances -/

/-- An element, given the markup of its content. -/
def elementMarkup (h : ElementHead) (content : Assembling (List TemplateNode)) :
    Assembling (List TemplateNode) := do
  let a ← elementAttributes src model h
  let children ← content
  return a.before ++ [.element h.tag a.attributes children (voidElements.contains h.tag)]

/-- The component that an instance belongs to, without the parts after a dot. -/
def instanceRoot (name : String) : String := ((parts '.' name).head?).getD name

/-- A component instance, given the markup that is handed to it. -/
def instanceMarkup (h : InstanceHead) (content : Assembling (List TemplateNode)) :
    Assembling (List TemplateNode) := do
  -- The tag is noted even if the instance is left behind afterwards.
  modify fun p => { p with componentTags := p.componentTags ++ [instanceRoot h.name] }
  let a ← instanceAttributes src model h
  let children ← content
  return a.before ++ [.component h.name a.attributes children]

/-- Markup handed to a component instance. Content without parameters needs no name. -/
def handedMarkup (name : String) (parameters : Option Node) (body : List TemplateNode) :
    List TemplateNode :=
  if name == "children" && parameters.isNone then body
  else [.snippet name (parametersText src parameters) body]

/-! ### Render trees -/

mutual

/-- The markup of a piece of a render tree. -/
def nodeMarkup : RenderNode → Assembling (List TemplateNode)
  | .fragment children => nodesMarkup children
  | .text value => return [.text value]
  | .unsupported n reason construct => do
    return [.placeholder (← leave src n reason construct "")]
  | .expression e => orPlaceholder src (some e) (valueMarkup src model e)
  | .rawHtml e => orPlaceholder src (some e) do return [.html (← expressionText src model e)]
  | .element h children =>
    orPlaceholder src (some h.node) (elementMarkup src model h (nodesMarkup children))
  | .component h slots =>
    orPlaceholder src (some h.node) (instanceMarkup src model h (slotsMarkup slots))
  | .conditional condition consequent alternate => orPlaceholder src condition do
    let shown ← expressionText? src model condition
    let content ← nodeMarkup consequent
    let (branches, otherwise) ← alternateMarkup alternate
    return [.conditional (.mk shown content :: branches) otherwise]
  | .list h body => orPlaceholder src (some h.node) (listMarkup src model h (nodeMarkup body))
  | .slot _ callee arguments isOptional =>
    orPlaceholder src arguments.head? (slotMarkup src model callee arguments isOptional)

/-- The markup of several pieces. -/
def nodesMarkup : List RenderNode → Assembling (List TemplateNode)
  | [] => return []
  | n :: rest => do
    let first ← nodeMarkup n
    let others ← nodesMarkup rest
    return first ++ others

/-- The further branches of a condition, and what is shown where none of them holds. -/
def alternateMarkup :
    Option RenderNode → Assembling (List IfBranch × Option (List TemplateNode))
  | none => return ([], none)
  | some (.conditional condition consequent alternate) => do
    let shown ← expressionText? src model condition
    let content ← nodeMarkup consequent
    let (branches, otherwise) ← alternateMarkup alternate
    return (.mk shown content :: branches, otherwise)
  | some other => return ([], some (← nodeMarkup other))

/-- The markup handed to a component instance. -/
def slotsMarkup : List SlotContent → Assembling (List TemplateNode)
  | [] => return []
  | .mk name parameters body :: rest => do
    let content ← nodeMarkup body
    let others ← slotsMarkup rest
    return handedMarkup src name parameters content ++ others

end

/-- The markup of an optional piece. -/
def optionalMarkup : Option RenderNode → Assembling (List TemplateNode)
  | none => return []
  | some n => nodeMarkup src model n

/-- A named piece of markup. -/
def snippetMarkup (s : Snippet) : Assembling TemplateNode := do
  return .snippet s.name (parametersText src s.parameters) (← nodeMarkup src model s.body)

end Sveltify.Assembly
