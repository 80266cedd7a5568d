import Sveltify.Assembly.Progress
import Sveltify.Svelte.Script

namespace Sveltify.Assembly

open Component Expression Svelte Text

/-!
# Declarations of a component

Every binding and statement of a component becomes a group of script entries, or one placeholder.

* `stateNodes`, `derivedNodes`, `effectNodes`, `consumerNodes`, `refNodes`, `localNodes`: the
  entries for the kinds of bindings;
* `Group`: entries with the offset where their source starts;
* `declarationGroups`: the groups of a component in source order;
* `provisionNodes`: the contexts that it provides.
-/

variable (src : Source) (model : Model) (indent : String)

/-- The converted text of an optional node. -/
def convertedText? : Option Node → Assembling (Option String)
  | none => return none
  | some n => return some (← convertedText src model false n)

/-! ### State -/

/-- Is the node the body of a function that can be written in place of a call of the function? -/
def isPlainBody (function body : Node) : Bool :=
  body.kind != "statement_block" && !function.hasToken "async"

/-- The initial value of a cell that is computed by a function. -/
def lazyInitial (initial : Node) : Assembling String := do
  let function ← need initial.bare?
  match (function.field? "body").filter (isPlainBody function) with
  | some body => convertedText src model false body
  | none =>
    let text ← convertedText src model false initial
    return s!"({text})()"

/-- The initial value of a plain cell. -/
def plainInitial (b : StateBinding) : Assembling (Option String) :=
  match b.initial with
  | none => return none
  | some initial =>
    if b.isLazy then return some (← lazyInitial src model initial)
    else return some (← convertedText src model false initial)

/-- The initial value of a cell with a reducer. -/
def reducerInitial (b : StateBinding) : Assembling (Option String) := do
  let initial ← convertedText? src model b.initial
  match b.reducerInitializer with
  | none => return initial
  | some initializer =>
    let f ← convertedText src model false initializer
    let argument := initial.getD ""
    return some s!"{f}({argument})"

/-- The function that dispatches actions to a reducer. -/
def dispatchFunction (b : StateBinding) (dispatch : String) : Assembling ScriptNode := do
  let reducer ← need b.reducer
  let inner ← need reducer.bare?
  let text ← convertedText src model false reducer
  -- A reducer that is no name has to be put in parentheses to be called.
  let callee := if inner.kind == "identifier" then text else s!"({text})"
  return .raw (unlines
    [s!"function {dispatch}(action) \x7b", s!"{indent}{b.name} = {callee}({b.name}, action);",
      "\x7d"])

/-- The entries for a cell of state. -/
def stateNodes (b : StateBinding) : Assembling (List ScriptNode) :=
  match b.kind with
  | .plain => do
    let initial ← plainInitial src model b
    return [.state { name := b.name, initial, typeArguments := b.typeArguments }]
  | .reducer => do
    let initial ← reducerInitial src model b
    let cell := .state { name := b.name, initial, typeArguments := b.typeArguments }
    match nonEmpty? b.dispatch with
    | some dispatch => return [cell, ← dispatchFunction src model indent b dispatch]
    | none => return [cell]

/-! ### Derived values and refs -/

/-- The entries for a derived value. -/
def derivedNodes (d : DerivedBinding) : Assembling (List ScriptNode) := do
  let target := ((d.node.field? "name").map src.text).getD d.name
  return [.derived {
    target
    expression := ← convertedText src model false d.expression
    isFunction := d.form == .function
    typeText := if model.typescript then d.typeText else none }]

/-- The entries for a ref. One that is bound to an element starts as `null`. -/
def refNodes (r : RefBinding) : Assembling (List ScriptNode) := do
  let isReactive := r.target.isSome
  let initial ← convertedText? src model r.initial
  return [.ref {
    name := r.name
    initial := if isReactive then initial.or (some "null") else initial
    isReactive
    typeArguments := if model.typescript then r.typeArguments else none }]

/-! ### Effects -/

/-- The function that runs an effect. -/
def effectRune (e : EffectBinding) : EffectRune :=
  match e.timing, e.dependencyKind with
  | .prePaint, _ => .effectPre
  | .postPaint, .onMount => .onMount
  | .postPaint, _ => .effect

/-- Does an effect that runs before painting ignore what it reads? -/
def isUntracked (e : EffectBinding) : Bool :=
  e.dependencyKind == .onMount && e.timing == .prePaint

/-- Does the node call the setter of a cell? -/
def callsSetter (n : Node) : Bool := model.state.values.any (·.setterCalls.contains n.span)

/-- The body of an effect given by an expression. The value of a call is returned, since it may be
the cleanup. -/
def effectExpression (e : Node) : Assembling String := do
  let inner ← need e.bare?
  let text ← convertedText src model true e
  if inner.kind == "call_expression" && !callsSetter model inner then return s!"return {text};"
  else return s!"{text};"

/-- The names that an effect needs from the framework. -/
def effectImports (e : EffectBinding) : List String :=
  (if effectRune e = .onMount then ["onMount"] else [])
    ++ if isUntracked e then ["untrack"] else []

/-- The declaration of an effect. -/
def effectDeclaration (e : EffectBinding) : Assembling EffectDeclaration := do
  let rune := effectRune e
  if e.isFunctionReference then
    let f ← convertedText src model false e.callback
    return { rune, functionReference := some f, isUntracked := isUntracked e }
  else
    let callback ← need e.callback.bare?
    -- Only the body of an arrow function without a block may have to be returned.
    let body ← e.statements.mapM fun s =>
      if e.hasExpressionBody then effectExpression src model s else convertedText src model false s
    let cleanup ← convertedText? src model e.cleanup
    return { rune, body, cleanup, isUntracked := isUntracked e, isAsync := callback.hasToken "async" }

/-- The entries for an effect. -/
def effectNodes (e : EffectBinding) : Assembling (List ScriptNode) := do
  useImports (effectImports e)
  return [.effect (← effectDeclaration src model e)]

/-! ### Contexts -/

/-- The entries for a consumed context. -/
def consumerNodes (u : ContextUse) : Assembling (List ScriptNode) := do
  useImports ["getContext"]
  let default ← convertedText? src model u.defaultValue
  let target := src.text (← need u.binding)
  return [.contextGet { target, key := u.key, default }]

/-- The entries for a provided context. -/
def providerNodes (u : ContextUse) : Assembling (List ScriptNode) := do
  let value := (← convertedText? src model u.value).getD "undefined"
  return [.contextSet { key := u.key, value }]

/-! ### Other statements -/

/-- The word that declares a name, with a blank after it, if there is one. -/
def keywordText (keyword : Option String) : String :=
  match nonEmpty? keyword with
  | some k => s!"{k} "
  | none => ""

/-- The word that declares a name; `const` unless another is known. -/
def declaringWord (l : LocalDeclaration) : String := (nonEmpty? l.keyword).getD "const"

/-- The parameters of a function in parentheses. -/
def parameterList (function : Node) : Assembling String :=
  match function.field? "parameters", function.field? "parameter" with
  | some params, _ => converted src model params
  | none, some single =>
    let name := src.text single
    return s!"({name})"
  | none, none => return "()"

/-- The text of a part of a node, if it is there. -/
def fieldText (n : Node) (name : String) : String := ((n.field? name).map src.text).getD ""

/-- The head of a function declaration. -/
def functionHead (function : Node) (name params : String) : String :=
  let async := if function.hasToken "async" then "async " else ""
  let star := if function.hasToken "*" then "*" else ""
  let typeParameters := fieldText src function "type_parameters"
  let returnType := fieldText src function "return_type"
  s!"{async}function{star} {name}{typeParameters}{params}{returnType}"

/-- The body of a function declaration, in braces. An expression is returned. -/
def functionBody (body anchor : Node) : Assembling String := do
  -- The body is moved to the left by the indentation of the declaration, not by its own.
  let ls := outdent src (← converted src model body) anchor
  if body.kind == "statement_block" then return unlines ls
  else
    let returned := padLines indent (enclose "return " ";" ls)
    return unlines ("\x7b" :: returned ++ ["\x7d"])

/-- A memoised function as a plain one. -/
def callbackText (l : LocalDeclaration) : Assembling String := do
  let name ← need l.names.head?
  let value ← need l.function
  let function ← need value.bare?
  if function.isFunction then
    let params ← parameterList src model function
    let body ← functionBody src model indent (← need (function.field? "body")) l.node
    return functionHead src function name params ++ " " ++ body
  else
    let text ← convertedText src model false value
    return s!"{declaringWord l} {name} = {text};"

/-- The entries for any other statement. -/
def localNodes (l : LocalDeclaration) : Assembling (List ScriptNode) := do
  match l.kind with
  | .unsupported =>
    let reason := (nonEmpty? l.reason).getD "construct cannot be converted"
    return [.placeholder (← leave src l.node reason l.construct (keywordText l.keyword))]
  | .propsId =>
    let name := src.text (← need (l.node.field? "name"))
    return [.raw s!"{declaringWord l} {name} = $props.id();"]
  | .callback => return [.raw (← callbackText src model indent l)]
  | .constant | .variable =>
    if l.node.kind == "variable_declarator" then
      let text ← convertedText src model false l.node
      return [.raw s!"{declaringWord l} {text};"]
    else return [.raw (← convertedText src model true l.node)]
  | .function | .statement => return [.raw (← convertedText src model true l.node)]

/-! ### Groups in source order -/

/-- Script entries with the offset where their source starts. -/
structure Group where
  start : Nat
  nodes : List ScriptNode
deriving Repr

/-- The group of a construct; a placeholder with the source after `before` if it has no
counterpart. -/
def groupFor (n : Node) (before : String) (build : Assembling (List ScriptNode)) :
    Assembling Group := do
  let nodes ← orElse build fun r => do
    return [.placeholder (← leave src n r.message r.construct before)]
  return { start := n.start, nodes }

/-- Groups by the offset of their source; of those with one offset the earlier one stays first. -/
def inSourceOrder (groups : List Group) : List Group :=
  groups.mergeSort fun a b => decide (a.start ≤ b.start)

/-- The groups for the declarations of a component, kind after kind. -/
def declarationGroups : Assembling (List Group) := do
  let state ← model.state.values.mapM fun b =>
    groupFor src b.node "const " (stateNodes src model indent b)
  let derived ← model.derived.values.mapM fun d =>
    groupFor src d.node "const " (derivedNodes src model d)
  let effects ← model.effects.mapM fun e => groupFor src e.node "" (effectNodes src model e)
  let consumers ← (model.contexts.filter (·.direction == .consume)).mapM fun u =>
    groupFor src u.node "const " (consumerNodes src model u)
  -- Forwarded refs are props, and declared as such.
  let refs ← (model.refs.values.filter (!·.isForwarded)).mapM fun r =>
    groupFor src r.node "const " (refNodes src model r)
  let locals ← model.locals.mapM fun l =>
    groupFor src l.node (keywordText l.keyword) (localNodes src model indent l)
  return state ++ derived ++ effects ++ consumers ++ refs ++ locals

/-- The entries for the contexts that a component provides. -/
def provisionNodes : Assembling (List ScriptNode) := do
  let groups ← (model.contexts.filter (·.direction == .provide)).mapM fun u => do
    useImports ["setContext"]
    groupFor src u.node "" (providerNodes src model u)
  return groups.flatMap (·.nodes)

end Sveltify.Assembly
