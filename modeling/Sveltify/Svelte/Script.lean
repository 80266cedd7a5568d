import Sveltify.Svelte.Placeholder

namespace Sveltify.Svelte

/-!
# Scripts

The declarations of a Svelte script, with expressions as finished text.

* `PropsDeclaration`, `StateDeclaration`, `DerivedDeclaration`, `EffectDeclaration`,
  `RefDeclaration`: the runes;
* `ContextGet`, `ContextSet`: context look-up and provision;
* `ScriptNode`: one entry of a script.
-/

/-- One prop. A rest entry gathers the props that are not named. -/
structure PropEntry where
  name : String
  localName : Option String := none
  default : Option String := none
  isBindable : Bool := false
  isRest : Bool := false
deriving Repr, DecidableEq

/-- The props of a component, destructured or under one name. -/
structure PropsDeclaration where
  entries : List PropEntry := []
  identifier : Option String := none
  typeText : Option String := none
deriving Repr, DecidableEq

/-- A cell of state. -/
structure StateDeclaration where
  name : String
  initial : Option String := none
  typeArguments : Option String := none
deriving Repr, DecidableEq

/-- A value derived from others, by an expression or by a function. -/
structure DerivedDeclaration where
  target : String
  expression : String
  isFunction : Bool := false
  typeText : Option String := none
deriving Repr, DecidableEq

/-- The functions that run effects. -/
inductive EffectRune where
  | onMount
  | effect
  | effectPre
deriving Repr, DecidableEq

/-- The spelling of the function that runs an effect. -/
def EffectRune.text : EffectRune → String
  | .onMount => "onMount"
  | .effect => "$effect"
  | .effectPre => "$effect.pre"

/-- An effect, given by the statements of its callback or by the name of a function. -/
structure EffectDeclaration where
  rune : EffectRune
  body : List String := []
  cleanup : Option String := none
  isUntracked : Bool := false
  isAsync : Bool := false
  functionReference : Option String := none
deriving Repr, DecidableEq

/-- The look-up of a context. -/
structure ContextGet where
  target : String
  key : String
  default : Option String := none
deriving Repr, DecidableEq

/-- The provision of a context. -/
structure ContextSet where
  key : String
  value : String
deriving Repr, DecidableEq

/-- A ref: reactive when it is bound to an element, else a plain variable. -/
structure RefDeclaration where
  name : String
  initial : Option String := none
  isReactive : Bool := false
  typeArguments : Option String := none
deriving Repr, DecidableEq

/-- One entry of a script. -/
inductive ScriptNode where
  | props (d : PropsDeclaration)
  | state (d : StateDeclaration)
  | derived (d : DerivedDeclaration)
  | effect (d : EffectDeclaration)
  | contextGet (d : ContextGet)
  | contextSet (d : ContextSet)
  | ref (d : RefDeclaration)
  | raw (text : String)
  | placeholder (p : Placeholder)
  /-- Something that does not belong in a script. -/
  | foreign (kind : String)
deriving Repr, DecidableEq

end Sveltify.Svelte
