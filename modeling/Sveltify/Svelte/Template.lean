import Sveltify.Svelte.Placeholder

namespace Sveltify.Svelte

/-!
# Templates

The markup of a Svelte component, with expressions as finished text.

* `TemplateAttribute`: an attribute with the way it is written;
* `TemplateNode`: elements, component instances, tags and blocks.
-/

/-- The ways to write an attribute. -/
inductive AttributeKind where
  /-- `name="value"` -/
  | static
  /-- A name with a value in braces. -/
  | expression
  /-- Only a value in braces, which names the attribute too. -/
  | shorthand
  /-- Only a name. -/
  | boolean
  /-- All entries of a value. -/
  | spread
  /-- An event with its handler. -/
  | event
  /-- A value that follows the element. -/
  | bind
  /-- One style property. -/
  | style
  /-- Something that is no attribute. -/
  | foreign (kind : String)
deriving Repr, DecidableEq

/-- The word for a kind of attribute. -/
def AttributeKind.text : AttributeKind → String
  | .static => "static"
  | .expression => "expression"
  | .shorthand => "shorthand"
  | .boolean => "boolean"
  | .spread => "spread"
  | .event => "event"
  | .bind => "bind"
  | .style => "style"
  | .foreign kind => kind

/-- An attribute. -/
structure TemplateAttribute where
  kind : AttributeKind
  name : String := ""
  value : Option String := none
deriving Repr, DecidableEq

mutual

/-- A piece of markup. -/
inductive TemplateNode where
  | element (tag : String) (attributes : List TemplateAttribute) (children : List TemplateNode)
      (isVoid : Bool)
  | component (name : String) (attributes : List TemplateAttribute) (children : List TemplateNode)
  | text (text : String)
  | expression (e : String)
  | html (e : String)
  | render (e : String)
  | constant (declaration : String)
  | conditional (branches : List IfBranch) (elseChildren : Option (List TemplateNode))
  | each (expression item : String) (index key : Option String) (children : List TemplateNode)
  | snippet (name parameters : String) (children : List TemplateNode)
  | placeholder (p : Placeholder)
  /-- Something that does not belong in markup. -/
  | foreign (kind : String)

/-- A condition with the markup shown where it holds. -/
inductive IfBranch where
  | mk (condition : String) (children : List TemplateNode)

end

deriving instance Repr for TemplateNode, IfBranch

instance : Inhabited TemplateNode := ⟨.text ""⟩

/-- Is the node an element? -/
def TemplateNode.isElement : TemplateNode → Bool
  | .element .. => true
  | _ => false

/-- Is the node a snippet? -/
def TemplateNode.isSnippet : TemplateNode → Bool
  | .snippet .. => true
  | _ => false

end Sveltify.Svelte
