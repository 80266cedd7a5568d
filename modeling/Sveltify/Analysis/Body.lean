import Sveltify.Analysis.ModuleLevel
import Sveltify.Analysis.Returns
import Sveltify.Diagnostic
import Sveltify.Render.Expression
import Sveltify.Scope.Reference

namespace Sveltify.Analysis

open Text Scope Component Render

/-!
# The body of a component

The statements of a component are read one after another; hooks are told by their names.

* `Body`: what has been read so far;
* `declareFresh`: declare names, unless one of them is taken;
* `readDeclarator`, `readStatement`: what one declarator or statement means;
* `readStatements`: the whole body, up to its first return.
-/

/-- A piece of markup with a name, before its render tree is built. -/
structure SnippetSource where
  name : String
  node : Node
  body : Node
  parameters : Option Node
deriving Repr

/-- What has been read of the body of a component. -/
structure Body where
  /-- The contexts of the module. -/
  contextDefinitions : Table ContextDefinition := ∅
  state : Table StateBinding := ∅
  derived : Table DerivedBinding := ∅
  effects : List EffectBinding := []
  consumers : List ContextUse := []
  refs : Table RefBinding := ∅
  locals : List LocalDeclaration := []
  snippets : List SnippetSource := []
  /-- The names that are taken. -/
  declared : List String := []
  /-- The names whose values change while the component lives. -/
  reactive : List String := []
  reports : List Report := []
deriving Repr

instance : Inhabited Body := ⟨{}⟩

/-- A step of reading a body. -/
abbrev Reading := EStateM Failure Body

variable (src : Source)

/-! ### Bookkeeping -/

/-- A report of the analysis about a node. -/
def reportOn (severity : Severity) (code message : String) (n : Node) (construct : String) :
    Report :=
  let place := src.startOf n
  { severity, stage := .analyze, code, message, line := some place.line,
    column := some place.column, construct := some construct }

/-- Add a report about a node. -/
def report (severity : Severity) (code message : String) (n : Node) (construct : String) :
    Reading Unit :=
  let r := reportOn src severity code message n construct
  modify fun b => { b with reports := b.reports ++ [r] }

/-- Keep a statement, taking its names without asking. -/
def addLocal (l : LocalDeclaration) : Reading Unit :=
  modify fun b => { b with declared := b.declared ++ l.names, locals := b.locals ++ [l] }

/-- Declare names. If one of them is taken, the whole declaration is kept as one that cannot be
converted, and nothing is declared. -/
def declareFresh (names : List String) (n : Node) (reactive : List String) : Reading Bool := do
  match names.find? (← get).declared.contains with
  | some taken =>
    report src .error Code.duplicateBinding s!"'{taken}' is already declared in this component" n
      taken
    addLocal { kind := .unsupported, node := n,
               reason := some s!"duplicate declaration of '{taken}'", construct := some taken }
    return false
  | none =>
    modify fun b => { b with declared := b.declared ++ names, reactive := b.reactive ++ reactive }
    return true

/-- Keep a statement if its names are free. -/
def bindStatement (l : LocalDeclaration) : Reading Unit := do
  if ← declareFresh src l.names l.node [] then
    modify fun b => { b with locals := b.locals ++ [l] }

/-- Keep a piece of markup if its name is free. -/
def bindSnippet (names : List String) (s : SnippetSource) : Reading Unit := do
  if ← declareFresh src names s.node [] then
    modify fun b => { b with snippets := b.snippets ++ [s] }

/-- Keep a derived value if its names are free. -/
def bindDerived (d : DerivedBinding) : Reading Unit := do
  if ← declareFresh src d.names d.node d.names then
    modify fun b => { b with derived := b.derived.insert d.name d }

/-- Keep a cell of state if its name and that of its setter or dispatch are free. -/
def bindState (s : StateBinding) : Reading Unit := do
  let companions := (nonEmpty? s.setter).toList ++ (nonEmpty? s.dispatch).toList
  if ← declareFresh src (s.name :: companions) s.node [s.name] then
    modify fun b => { b with state := b.state.insert s.name s }

/-- Keep a declarator that cannot be converted. -/
def refuseDeclarator (declarator : Node) (names : List String) (keyword reason : String)
    (construct : Option String) : Reading Unit :=
  addLocal { kind := .unsupported, node := declarator, names, keyword := some keyword,
             reason := some reason, construct }

/-- Keep a statement that cannot be converted. -/
def refuseStatement (statement : Node) (reason : String) (construct : Option String) :
    Reading Unit :=
  addLocal { kind := .unsupported, node := statement, reason := some reason, construct }

/-! ### Dependencies -/

/-- Warn about dependencies that a function never reads. -/
def warnUnread (hook : HookCall) (function : Node) (deps : Option Node) : Reading Unit := do
  let used := namesUsed src function
  -- A dependency such as `user.name` is read if the name it starts with is.
  let stale := (Hook.dependencyTexts src deps).filter fun d =>
    (leadingIdentifier? d).any fun root => !used.contains root
  if !stale.isEmpty then
    let listed := ", ".intercalate stale
    report src .warning Code.staleDependency
      s!"{hook.name} lists dependencies its body never reads: {listed}" (deps.getD hook.node)
      hook.name

/-- The type that a declarator states. -/
def declaredType? (declarator : Node) : Option String :=
  (declarator.field? "type").map (annotationText src)

/-! ### Hooks that bind names -/

/-- The names of a cell and its companion in a pattern `[cell, companion]`. -/
def cellNames? (pattern : Node) : Option (String × Option String) :=
  if pattern.kind == "array_pattern" then
    match pattern.namedChildren with
    | [] => none
    | cell :: rest =>
      if cell.kind == "identifier" then
        let companion := rest.head?.bind fun c =>
          if c.kind == "identifier" then some (src.text c) else none
        some (src.text cell, companion)
      else none
  else none

/-- A cell of plain state. -/
def readState (hook : HookCall) (declarator pattern : Node) (keyword : String) :
    Reading Unit := do
  match cellNames? src pattern, decide (pattern.namedChildren.length ≤ 2) with
  | some (name, setter), true =>
    let initial := hook.argument? 0
    -- The names are claimed first, so a taken name is reported even if the value is broken.
    if ← declareFresh src (name :: (nonEmpty? setter).toList) declarator [name] then
      let isLazy ← match initial with
        | some n => do pure (← need n.bare?).isFunction
        | none => pure false
      modify fun b => { b with
        state := b.state.insert name
          { name, node := declarator, kind := .plain, initial, setter,
            typeArguments := hook.typeArguments, isLazy } }
  | _, _ =>
    refuseDeclarator declarator (boundNames src pattern) keyword
      "useState result must be destructured as [value, setValue]" (some hook.name)

/-- A cell of state that changes through a reducer. -/
def readReducer (hook : HookCall) (declarator pattern : Node) (keyword : String) :
    Reading Unit := do
  match cellNames? src pattern, hook.argument? 0 with
  | some (name, dispatch), some reducer =>
    let inner ← need reducer.bare?
    if inner.kind != "identifier" && !inner.isFunction then
      report src .warning Code.dynamicHookArgument
        "useReducer with a dynamic reducer could not be fully analyzed; the reducer expression is called as-is"
        reducer hook.name
    bindState src
      { name, node := declarator, kind := .reducer, initial := hook.argument? 1,
        reducer := some reducer, reducerInitializer := hook.argument? 2, dispatch,
        typeArguments := hook.typeArguments }
  | _, _ =>
    refuseDeclarator declarator (boundNames src pattern) keyword
      "useReducer result must be destructured as [state, dispatch]" (some hook.name)

/-- A memoised value. -/
def readMemo (hook : HookCall) (declarator pattern : Node) (keyword : String) :
    Reading Unit := do
  let names := boundNames src pattern
  match hook.argument? 0 with
  | none =>
    refuseDeclarator declarator names keyword "useMemo requires a factory function"
      (some hook.name)
  | some factory =>
    let deps := hook.argument? 1
    let inner ← need factory.bare?
    -- The body of an arrow function that only gives a value is that value. Any other factory is
    -- called.
    let body := (inner.field? "body").filter fun b =>
      inner.isFunction && b.kind != "statement_block" && !inner.hasToken "async"
    if inner.isFunction then warnUnread src hook inner deps
    else if inner.kind != "identifier" then
      report src .warning Code.dynamicHookArgument
        "useMemo factory is not a function literal; it is evaluated with $derived.by" factory
        hook.name
    bindDerived src
      { name := src.text pattern, node := declarator, expression := body.getD factory,
        isImplicit := false, names, declaredDependencies := Hook.dependencyTexts src deps,
        form := if body.isSome then .expression else .function,
        typeText := (nonEmpty? (declaredType? src declarator)).or hook.typeArguments }

/-- A memoised function. -/
def readCallback (hook : HookCall) (declarator pattern : Node) (keyword : String) :
    Reading Unit := do
  let names := boundNames src pattern
  match hook.argument? 0, pattern.kind == "identifier" with
  | some function, true =>
    if (← need function.bare?).isFunction then
      warnUnread src hook (← need function.bare?) (hook.argument? 1)
    bindStatement src { kind := .callback, node := declarator, names, function := some function,
                        keyword := some keyword }
  | _, _ =>
    refuseDeclarator declarator names keyword "useCallback requires a function bound to a name"
      (some hook.name)

/-- A value consumed from a context. -/
def readContext (hook : HookCall) (declarator pattern : Node) (keyword : String) :
    Reading Unit := do
  let names := boundNames src pattern
  match hook.argument? 0 with
  | none =>
    refuseDeclarator declarator names keyword "useContext requires a context argument"
      (some hook.name)
  | some target =>
    let inner ← need target.bare?
    if inner.kind != "identifier" && inner.kind != "member_expression" then
      report src .warning Code.dynamicHookArgument
        "useContext argument is computed; its source text is used as the context key" target
        hook.name
    -- The key is the text of the context, in which blanks make no difference.
    let key := squeeze (src.text inner)
    if ← declareFresh src names declarator [] then
      modify fun b => { b with
        consumers := b.consumers ++
          [{ key, direction := .consume, node := declarator, binding := some pattern,
             defaultValue := (b.contextDefinitions.get? key).bind (·.defaultValue) }] }

/-- A ref. -/
def readRef (hook : HookCall) (declarator pattern : Node) (keyword : String) : Reading Unit := do
  let names := boundNames src pattern
  if pattern.kind == "identifier" then
    if ← declareFresh src names declarator [] then
      let name := src.text pattern
      modify fun b => { b with
        refs := b.refs.insert name
          { name, node := declarator, initial := hook.argument? 0,
            typeArguments := hook.typeArguments } }
  else
    refuseDeclarator declarator names keyword "useRef result must be bound to a single name"
      (some hook.name)

/-- Remark that a hook is the module's own. -/
def remarkCustomHook (hook : HookCall) : Reading Unit :=
  report src .info Code.analysisAmbiguity
    s!"{hook.name} is not a known React hook; the call is kept as-is and must be ported separately"
    hook.node hook.name

/-- The kind of a statement that declares variables with a keyword. -/
def variableKind (keyword : String) : LocalKind :=
  if keyword == "const" then .constant else .variable

/-- A declarator whose value is the call of a hook. -/
def readHook (hook : HookCall) (declarator pattern : Node) (keyword : String) : Reading Unit := do
  let names := boundNames src pattern
  match hook.kind with
  | .useState => readState src hook declarator pattern keyword
  | .useReducer => readReducer src hook declarator pattern keyword
  | .useMemo => readMemo src hook declarator pattern keyword
  | .useCallback => readCallback src hook declarator pattern keyword
  | .useContext => readContext src hook declarator pattern keyword
  | .useRef => readRef src hook declarator pattern keyword
  | .useId =>
    bindStatement src { kind := .propsId, node := declarator, names, keyword := some keyword }
  | .custom =>
    remarkCustomHook src hook
    bindStatement src
      { kind := variableKind keyword, node := declarator, names, keyword := some keyword }
  | .unsupported =>
    refuseDeclarator declarator names keyword s!"{hook.name} has no Svelte 5 equivalent"
      (some hook.name)
  | .useEffect | .useLayoutEffect | .createContext | .useDebugValue =>
    refuseDeclarator declarator names keyword
      s!"{hook.name} cannot be used inside a component body" (some hook.name)

/-! ### Declarators and functions -/

/-- A declarator with a value that is no hook. -/
def readValue (declarator pattern value : Node) (keyword : String) : Reading Unit := do
  let names := boundNames src pattern
  let inner ← need value.bare?
  if inner.isJsx && pattern.kind == "identifier" then
    bindSnippet src names ⟨src.text pattern, declarator, inner, none⟩
  else if inner.isFunction && inner.hasMarkup then
    match onlyReturn? inner, pattern.kind == "identifier" with
    | some returned, true =>
      bindSnippet src names ⟨src.text pattern, declarator, returned,
        (inner.field? "parameters").or (inner.field? "parameter")⟩
    | _, _ => refuseDeclarator declarator names keyword "function builds JSX imperatively" none
  else if inner.hasMarkup then
    refuseDeclarator declarator names keyword "JSX inside this expression cannot be converted" none
  else
    let reactive := (← get).reactive
    -- A constant that is computed from reactive names changes with them.
    if keyword == "const" && !inner.isFunction
        && (namesUsed src inner).any reactive.contains then
      bindDerived src
        { name := src.text pattern, node := declarator, expression := value, isImplicit := true,
          names, typeText := declaredType? src declarator }
    else
      bindStatement src
        { kind := variableKind keyword, node := declarator, names, keyword := some keyword }

/-- What a declarator means. -/
def readDeclarator (keyword : String) (declarator : Node) : Reading Unit := do
  match declarator.field? "name" with
  | none => return
  | some pattern =>
    let value := declarator.field? "value"
    match ← Hook.match? src value, value with
    | some hook, _ => readHook src hook declarator pattern keyword
    | none, some value => readValue src declarator pattern value keyword
    | none, none =>
      bindStatement src { kind := variableKind keyword, node := declarator,
                          names := boundNames src pattern, keyword := some keyword }

/-- What a function declaration means. -/
def readFunction (statement : Node) : Reading Unit := do
  let name := (statement.field? "name").map src.text
  let names := name.toList
  if statement.hasMarkup then
    match onlyReturn? statement, name with
    | some returned, some name =>
      bindSnippet src names ⟨name, statement, returned, statement.field? "parameters"⟩
    | _, _ =>
      addLocal { kind := .unsupported, node := statement, names,
                 reason := some "function builds JSX imperatively" }
  else
    bindStatement src { kind := .function, node := statement, names, function := some statement }

/-! ### Effects -/

/-- When an effect runs again, by its dependency list. -/
def dependencyKind (deps : Option Node) : DependencyKind :=
  if deps.isNone then .onEveryUpdate
  else if Hook.isEmptyList deps then .onMount
  else .onDeps

/-- The statements of the block of a callback, and the cleanup that its final return yields. -/
def effectBlock (statements : List Node) : List Node × Option Node :=
  match statements.getLast? with
  | some last =>
    if last.kind == "return_statement" then
      let cleanup := last.firstNamed?.filter fun v =>
        !(v.kind == "identifier" && src.text v == "undefined")
      (statements.dropLast, cleanup)
    else (statements, none)
  | none => ([], none)

/-- Warn about a dependency list that is no array literal. -/
def warnComputedList (hook : HookCall) (deps : Option Node) : Reading Unit :=
  match deps with
  | some d =>
    if dependencyKind deps == .onDeps && d.kind != "array" then
      report src .warning Code.dynamicHookArgument
        s!"{hook.name} dependency list is not an array literal; Svelte tracks the values the effect reads instead"
        d hook.name
    else pure ()
  | none => pure ()

/-- Remark on what the callback of an effect reads, as far as that can be told. -/
def remarkCallback (hook : HookCall) (callback inner : Node) (deps : Option Node) :
    Reading Unit :=
  if inner.isFunction then warnUnread src hook inner deps
  else if inner.kind == "identifier" then
    report src .info Code.analysisAmbiguity
      s!"{hook.name} callback is a function reference; its tracked reads cannot be checked"
      callback hook.name
  else
    report src .warning Code.dynamicHookArgument
      s!"{hook.name} callback is computed at runtime and is called as-is" callback hook.name

/-- Remark on an effect that runs after every render. -/
def remarkEveryUpdate (hook : HookCall) (statement : Node) (deps : Option Node) : Reading Unit :=
  if dependencyKind deps == .onEveryUpdate then
    report src .info Code.effectEveryUpdate
      s!"{hook.name} without a dependency list runs after every render in React; the Svelte effect re-runs only when a value it reads changes"
      statement hook.name
  else pure ()

/-- The effect of a callback, which is `inner` without wrappers. -/
def effectOf (hook : HookCall) (statement callback inner : Node) (deps : Option Node) :
    EffectBinding :=
  let body := if inner.isFunction then inner.field? "body" else none
  let hasBlock := body.any (·.kind == "statement_block")
  -- A body without a block is the only statement, and gives no cleanup.
  let (statements, cleanup) := match body with
    | some b => if hasBlock then effectBlock src b.namedChildren else ([b], none)
    | none => ([], none)
  { node := statement, hook := hook.name, callback
    timing := if hook.kind == .useLayoutEffect then .prePaint else .postPaint
    dependencyKind := dependencyKind deps, statements, cleanup
    declaredDependencies := Hook.dependencyTexts src deps
    isFunctionReference := !inner.isFunction
    hasExpressionBody := body.isSome && !hasBlock }

/-- An effect. -/
def readEffect (hook : HookCall) (statement : Node) : Reading Unit := do
  match hook.argument? 0 with
  | none => refuseStatement statement s!"{hook.name} requires a callback" (some hook.name)
  | some callback =>
    let deps := hook.argument? 1
    warnComputedList src hook deps
    let inner ← need callback.bare?
    remarkCallback src hook callback inner deps
    remarkEveryUpdate src hook statement deps
    let effect := effectOf src hook statement callback inner deps
    modify fun b => { b with effects := b.effects ++ [effect] }

/-! ### Statements -/

/-- The reason why a statement with JSX is not converted. -/
def imperativeJsx : String := "statement builds JSX imperatively"

/-- Keep a statement as it is, unless it holds JSX. -/
def keepStatement (statement : Node) : Reading Unit :=
  if statement.hasMarkup then refuseStatement statement imperativeJsx none
  else addLocal { kind := .statement, node := statement }

/-- What an expression statement means. -/
def readExpression (statement : Node) : Reading Unit := do
  match ← Hook.match? src statement.firstNamed? with
  | none => keepStatement statement
  | some hook =>
    match hook.kind with
    | .useEffect | .useLayoutEffect => readEffect src hook statement
    | .useDebugValue =>
      report src .info Code.hookErased "useDebugValue has no Svelte equivalent and was removed"
        statement hook.name
    | .custom =>
      remarkCustomHook src hook
      addLocal { kind := .statement, node := statement }
    | .unsupported =>
      refuseStatement statement s!"{hook.name} has no Svelte 5 equivalent" (some hook.name)
    | _ =>
      refuseStatement statement s!"{hook.name} result is not bound to a name" (some hook.name)

/-- The keyword of a declaration. -/
def keywordOf (declaration : Node) : String :=
  match declaration.children.find? fun c =>
      !c.isNamed && ["const", "let", "var"].contains c.kind with
  | some token => token.kind
  | none => "const"

/-- What a statement means that neither returns nor branches to returns. -/
def readStatement (statement : Node) : Reading Unit :=
  if isVariableDeclaration statement then
    (statement.namedChildren.filter (·.kind == "variable_declarator")).forM
      (readDeclarator src (keywordOf statement))
  else if statement.kind == "function_declaration" then readFunction src statement
  else if statement.kind == "expression_statement" then readExpression src statement
  else if isTypeStatement statement then addLocal { kind := .statement, node := statement }
  else keepStatement statement

/-- Read statements up to the first return: the early returns before it, and its value. -/
def readStatements : List Node → Reading (List ReturnChain × Option Node)
  | [] => return ([], none)
  | s :: rest =>
    if s.kind == "return_statement" then return ([], s.firstNamed?)
    else
      match returnChain? s with
      | some chain =>
        -- Nothing behind a chain with a final `else` is ever reached.
        if chain.isTerminal then return ([chain], none)
        else do
          let (chains, final) ← readStatements rest
          return (chain :: chains, final)
      | none => do
        readStatement src s
        readStatements rest

end Sveltify.Analysis
