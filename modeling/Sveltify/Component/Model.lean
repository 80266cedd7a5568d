import Sveltify.Component.Context
import Sveltify.Component.Props
import Sveltify.Render.Tree
import Sveltify.Table

namespace Sveltify.Component

open Render

/-!
# What a component means

The model of a component says what its hooks and statements stand for; every expression is still a
node of the source.

* `StateBinding`, `DerivedBinding`, `EffectBinding`, `RefBinding`, `LocalDeclaration`: what the
  body of a component declares;
* `ModuleItem`: a top-level statement that is kept;
* `Model`: all of it, with the render tree.
-/

/-- A plain cell of state, or one that changes through a reducer. -/
inductive StateKind where
  | plain
  | reducer
deriving Repr, DecidableEq

/-- The word for a kind of state. -/
def StateKind.text : StateKind → String
  | .plain => "plain"
  | .reducer => "reducer"

/-- A cell of state. -/
structure StateBinding where
  name : String
  node : Node
  kind : StateKind
  initial : Option Node := none
  setter : Option String := none
  /-- The spans of the calls of the setter. -/
  setterCalls : List (Nat × Nat) := []
  /-- The spans of the other uses of the setter. -/
  setterReferences : List (Nat × Nat) := []
  reducer : Option Node := none
  reducerInitializer : Option Node := none
  dispatch : Option String := none
  typeArguments : Option String := none
  /-- Is the initial value computed by a function? -/
  isLazy : Bool := false
deriving Repr

/-- Is a derived value given by an expression, or by a function that computes it? -/
inductive DerivedForm where
  | expression
  | function
deriving Repr, DecidableEq

/-- The word for the form of a derived value. -/
def DerivedForm.text : DerivedForm → String
  | .expression => "expression"
  | .function => "function"

/-- A value that follows the reactive values it reads. -/
structure DerivedBinding where
  /-- The pattern that the value is bound to, as text. -/
  name : String
  node : Node
  expression : Node
  /-- Is the value derived without a hook that says so? -/
  isImplicit : Bool
  names : List String
  declaredDependencies : List String := []
  form : DerivedForm := .expression
  typeText : Option String := none
deriving Repr

/-- Does an effect run before or after the page is painted? -/
inductive EffectTiming where
  | postPaint
  | prePaint
deriving Repr, DecidableEq

/-- The word for the timing of an effect. -/
def EffectTiming.text : EffectTiming → String
  | .postPaint => "post_paint"
  | .prePaint => "pre_paint"

/-- When an effect runs again. -/
inductive DependencyKind where
  | onMount
  | onDeps
  | onEveryUpdate
deriving Repr, DecidableEq

/-- The word for when an effect runs again. -/
def DependencyKind.text : DependencyKind → String
  | .onMount => "on_mount"
  | .onDeps => "on_deps"
  | .onEveryUpdate => "on_every_update"

/-- An effect. -/
structure EffectBinding where
  node : Node
  hook : String
  callback : Node
  timing : EffectTiming
  dependencyKind : DependencyKind
  statements : List Node := []
  cleanup : Option Node := none
  declaredDependencies : List String := []
  /-- Is the callback something else than a function literal? -/
  isFunctionReference : Bool := false
  /-- Is the body of the callback an expression? -/
  hasExpressionBody : Bool := false
deriving Repr

/-- A ref. -/
structure RefBinding where
  name : String
  node : Node
  /-- The number of the element it is bound to. -/
  target : Option Nat := none
  initial : Option Node := none
  typeArguments : Option String := none
  /-- Is it received from the parent? -/
  isForwarded : Bool := false
deriving Repr

/-- The kinds of statements of a component that are no hooks. -/
inductive LocalKind where
  | function
  | callback
  | constant
  | variable
  | statement
  | propsId
  | unsupported
deriving Repr, DecidableEq

/-- The word for a kind of statement. -/
def LocalKind.text : LocalKind → String
  | .function => "function"
  | .callback => "callback"
  | .constant => "constant"
  | .variable => "variable"
  | .statement => "statement"
  | .propsId => "props_id"
  | .unsupported => "unsupported"

/-- A statement of a component. -/
structure LocalDeclaration where
  kind : LocalKind
  node : Node
  names : List String := []
  function : Option Node := none
  keyword : Option String := none
  reason : Option String := none
  construct : Option String := none
deriving Repr

/-- The kinds of top-level statements that are kept. -/
inductive ModuleItemKind where
  | importing
  | declaration
  | exported
  | typing
deriving Repr, DecidableEq

/-- The word for a kind of top-level statement. -/
def ModuleItemKind.text : ModuleItemKind → String
  | .importing => "import"
  | .declaration => "declaration"
  | .exported => "exported"
  | .typing => "type"

/-- A top-level statement that is kept. -/
structure ModuleItem where
  kind : ModuleItemKind
  node : Node
  names : List String := []
deriving Repr

/-- The model of a component. -/
structure Model where
  name : String
  node : Node
  props : ComponentProps
  state : Table StateBinding := ∅
  derived : Table DerivedBinding := ∅
  effects : List EffectBinding := []
  contexts : List ContextUse := []
  contextDefinitions : Table ContextDefinition := ∅
  refs : Table RefBinding := ∅
  renderTree : Option RenderNode := none
  slots : Table (List String) := ∅
  snippets : List Snippet := []
  locals : List LocalDeclaration := []
  moduleItems : List ModuleItem := []
  styles : List String := []
  typescript : Bool := false
deriving Repr

namespace Model

/-- The setters of a component with the cells they belong to. -/
def setters (m : Model) : Table StateBinding :=
  m.state.values.foldl (fun t b =>
    match nonEmpty? b.setter with
    | some setter => t.insert setter b
    | none => t) ∅

/-- The names under which the props are visible. -/
def propNames (m : Model) : List String := m.props.bindings.map (·.visibleName)

/-- The names whose values change while the component lives: props, state, derived values and the
refs bound to elements. -/
def reactiveNames (m : Model) : List String :=
  m.propNames
    ++ (nonEmpty? m.props.identifier).toList
    ++ m.state.keys
    ++ m.derived.values.flatMap (fun d => if d.names.isEmpty then [d.name] else d.names)
    ++ (m.refs.entries.filter (·.2.target.isSome)).map (·.1)

end Model

end Sveltify.Component
