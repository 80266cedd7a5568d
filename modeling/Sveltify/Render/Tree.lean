import Sveltify.Syntax.Node

namespace Sveltify.Render

/-!
# Render trees

What a component renders, with the expressions as nodes of the source.

* `Attribute`, `EventBinding`: what an opening tag holds;
* `RenderNode`: elements, component instances, texts, conditions, lists and slots;
* `SlotContent`: markup handed to a component instance;
* `Snippet`: a named piece of markup of a component.

Elements and component instances carry numbers that are unique within a component.
-/

/-- An attribute. A spread has the name `...`, an attribute without value is switched on. -/
structure Attribute where
  name : String
  node : Node
  value : Option Node := none
  isSpread : Bool := false
deriving Repr

/-- An event attribute with its handler. -/
structure EventBinding where
  name : String
  handler : Node
  node : Node
deriving Repr

/-- What an element is apart from its content. -/
structure ElementHead where
  tag : String
  node : Node
  id : Nat
  attributes : List Attribute := []
  events : List EventBinding := []
  /-- The ref that the element is bound to. -/
  ref : Option String := none
  /-- A ref that is not the name of a known one. -/
  refExpression : Option Node := none
  /-- Markup given as text in place of content. -/
  html : Option Node := none
deriving Repr

/-- What a list is apart from the markup of its items. -/
structure ListHead where
  node : Node
  iterable : Option Node
  item : Option Node := none
  index : Option String := none
  key : Option Node := none
  declarations : List Node := []
deriving Repr

/-- What a component instance is apart from the markup handed to it. -/
structure InstanceHead where
  name : String
  node : Node
  id : Nat
  props : List Attribute := []
deriving Repr

mutual

/-- A piece of what a component renders. -/
inductive RenderNode where
  | element (head : ElementHead) (children : List RenderNode)
  | text (value : String)
  | expression (e : Node)
  | rawHtml (e : Node)
  | conditional (condition : Option Node) (consequent : RenderNode)
      (alternate : Option RenderNode)
  | list (head : ListHead) (body : RenderNode)
  | component (head : InstanceHead) (slots : List SlotContent)
  | slot (name callee : String) (arguments : List Node) (isOptional : Bool)
  | fragment (children : List RenderNode)
  | unsupported (node : Node) (reason : String) (construct : Option String)

/-- Markup handed to a component instance. -/
inductive SlotContent where
  | mk (name : String) (parameters : Option Node) (body : RenderNode)

end

deriving instance Repr for RenderNode, SlotContent

instance : Inhabited RenderNode := ⟨.fragment []⟩

/-- The piece that renders nothing. -/
def RenderNode.nothing : RenderNode := .fragment []

/-- How the number of an element is written. -/
def idText (id : Nat) : String := s!"n{id}"

/-- A named piece of markup of a component. -/
structure Snippet where
  name : String
  node : Node
  body : RenderNode
  parameters : Option Node := none
deriving Repr

end Sveltify.Render
