import Sveltify.Syntax.Node

namespace Sveltify.Component

/-!
# Contexts

* `ContextDefinition`: a context created at the top level of a module;
* `ContextUse`: a place where a component provides or consumes one.
-/

/-- Does a component provide the value of a context, or consume it? -/
inductive ContextDirection where
  | provide
  | consume
deriving Repr, DecidableEq

/-- The word for a direction. -/
def ContextDirection.text : ContextDirection → String
  | .provide => "provide"
  | .consume => "consume"

/-- A use of a context. -/
structure ContextUse where
  key : String
  direction : ContextDirection
  node : Node
  /-- The value that is provided. -/
  value : Option Node := none
  /-- The pattern that the consumed value is bound to. -/
  binding : Option Node := none
  /-- The value consumed where nothing provides one. -/
  defaultValue : Option Node := none
  /-- Does it depend on a condition or a list whether the provider is rendered? -/
  isNested : Bool := false
deriving Repr

/-- A context with the value it has where nothing provides one. -/
structure ContextDefinition where
  key : String
  node : Node
  defaultValue : Option Node := none
deriving Repr

end Sveltify.Component
