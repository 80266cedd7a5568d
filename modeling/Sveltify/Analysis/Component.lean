import Sveltify.Analysis.Body
import Sveltify.Analysis.Resolve
import Sveltify.Options
import Sveltify.Render.Builder

namespace Sveltify.Analysis

open Text Scope Component Render

/-!
# From a module to the model of its component

* `chooseComponent`: the component of a module that is converted;
* `assemble`: the render tree of early returns and a final return;
* `setterSites`: where the setters of a component are called and used;
* `analyzeComponent`: the model of the chosen component;
* `analyze`: both steps.
-/

/-- A step of a stage that reports. -/
abbrev Reporting := EStateM Failure (List Report)

/-- Add reports. -/
def addReports (rs : List Report) : Reporting Unit := modify (· ++ rs)

/-! ### Choosing the component -/

/-- The refusal of a module without component. -/
def noComponent (sourceName : String) : Refusal where
  kind := .noComponent
  message := "no function component found"
  place := { path := some sourceName, line := some 1, column := some 1 }
  hint := some
    "Export a function whose name starts with an uppercase letter and returns JSX."

/-- A component of a module together with all of the module's components. -/
structure Choice where
  chosen : Candidate
  candidates : List Candidate
deriving Repr

/-- The component that is converted. -/
def chooseComponent (m : Module) (sourceName : String) : Except Failure Choice := do
  let candidates ← m.components
  match select? candidates with
  | some chosen => return { chosen, candidates }
  | none => throw (.refused (noComponent sourceName))

/-- Remarks on the choice: an erased `memo`, and components that are left out. -/
def choiceReports (src : Source) (c : Choice) : List Report :=
  let memo :=
    if c.chosen.isMemo then
      [reportOn src .info Code.memoErased
        "memo() wrapper removed; Svelte components update from fine-grained reactivity, so prop-equality skipping is not preserved"
        c.chosen.statement "memo"]
    else []
  let others := c.candidates.filter fun o => !o.statement.same c.chosen.statement
  memo ++ others.map fun o =>
    reportOn src .warning Code.extraComponent
      s!"only one component per file is converted; '{o.name}' was skipped and needs its own .svelte file"
      o.statement o.name

/-! ### Reading the body -/

/-- A body in which the props are declared. -/
def bodyOfProps (props : ComponentProps) (contexts : Table ContextDefinition) : Body :=
  let names := props.bindings.map (·.visibleName) ++ (nonEmpty? props.identifier).toList
  let refs := (props.bindings.filter (·.isBindable)).foldl (fun t b =>
    t.insert b.visibleName { name := b.visibleName, node := b.node, isForwarded := true }) ∅
  { contextDefinitions := contexts, refs, declared := names, reactive := names }

/-- What is read of a component: its body, its early returns and the value it ends with. -/
structure ComponentBody where
  body : Body
  returns : List ReturnChain
  final : Option Node
deriving Repr

/-- Read what a function does: its early returns, and the value it ends with. -/
def readFunctionBody (src : Source) (function : Node) :
    Reading (List ReturnChain × Option Node) :=
  match function.field? "body" with
  | some block =>
    if block.kind == "statement_block" then readStatements src block.namedChildren
    else return ([], some block)
  | none => return ([], none)

/-- Read the body of a component. -/
def readBody (src : Source) (function : Node) (start : Body) : Reporting ComponentBody :=
  fun reports =>
    match readFunctionBody src function { start with reports } with
    | .ok (returns, final) body => .ok { body, returns, final } body.reports
    | .error e body => .error e body.reports

/-! ### Building the render trees -/

/-- A chain of early returns with its render trees. -/
structure BuiltChain where
  branches : List (Option Node × Option RenderNode)
  isTerminal : Bool
  elseValue : Option RenderNode

/-- Build the render trees of a chain of early returns, in the order of the source. -/
def buildChain (src : Source) (names : Names) (c : ReturnChain) : Build BuiltChain := do
  let branches ← c.branches.mapM fun (condition, value) => do
    return (condition, ← buildOptional src names false value)
  let elseValue ← if c.isTerminal then buildOptional src names false c.elseValue else pure none
  return { branches, isTerminal := c.isTerminal, elseValue }

/-- The conditions of a chain in front of what is rendered if none of them holds. -/
def chainTree (branches : List (Option Node × Option RenderNode)) (rest : Option RenderNode) :
    Option RenderNode :=
  branches.foldr (fun (condition, consequent) alternate =>
    some (.conditional condition (consequent.getD .nothing) alternate)) rest

/-- The render tree of early returns in front of a final value. -/
def assemble (chains : List BuiltChain) (final : Option RenderNode) : Option RenderNode :=
  -- What follows on a chain with a final `else` is dropped.
  chains.foldr (fun c rest =>
    chainTree c.branches (if c.isTerminal then c.elseValue else rest)) final

/-- The render trees of a component: its snippets, and what it returns. -/
def buildTrees (src : Source) (names : Names) (b : ComponentBody) :
    Build (List Snippet × Option RenderNode) := do
  let snippets ← b.body.snippets.mapM fun s => do
    let body ← buildExpression src names false s.body
    return { name := s.name, node := s.node, body := body.getD .nothing,
             parameters := s.parameters }
  let chains ← b.returns.mapM (buildChain src names)
  let final ← buildOptional src names false b.final
  return (snippets, assemble chains final)

/-- Build the render trees of a component, keeping what is found on the way. -/
def renderBody (src : Source) (names : Names) (b : ComponentBody) :
    Reporting ((List Snippet × Option RenderNode) × Progress) :=
  fun reports =>
    match buildTrees src names b { reports } with
    | .ok trees p => .ok (trees, p) p.reports
    | .error e p => .error e p.reports

/-! ### Linking -/

/-- Note the element that each ref is bound to. -/
def attachRefs (targets : Table Nat) (refs : Table RefBinding) : Table RefBinding :=
  refs.mapValues fun name r =>
    match targets.get? name with
    | some target => { r with target := some target }
    | none => r

/-- The callee of a call by name. -/
def namedCallee? (n : Node) : Option Node :=
  if n.kind == "call_expression" then (n.field? "function").filter (·.kind == "identifier")
  else none

/-- The calls of setters in a tree, with their callees. -/
def callsOfSetters (src : Source) (setters : List String) (tree : Node) : List (Node × Node) :=
  tree.preorder.filterMap fun n =>
    ((namedCallee? n).filter fun c => setters.contains (src.text c)).map fun c => (n, c)

/-- Note where the setter of a cell is called, and where else it is used. -/
def withSites (src : Source) (calls : List (Node × Node)) (uses : List Node) (b : StateBinding) :
    StateBinding :=
  match nonEmpty? b.setter with
  | none => b
  | some setter =>
    { b with
      setterCalls := (calls.filter fun c => src.text c.2 == setter).map fun c => c.1.span
      setterReferences := (uses.filter fun r => src.text r == setter).map (·.span) }

/-- Note where the setters of the cells are called, and where else they are used. -/
def setterSites (src : Source) (function : Node) (state : Table StateBinding) :
    Table StateBinding :=
  let setters := state.values.filterMap fun b => nonEmpty? b.setter
  let calls := callsOfSetters src setters function
  let calleeSpans := calls.map fun c => c.2.span
  -- The callee of a call is a reference as well, but no use as a value.
  let uses := (references src function).filter fun r => !calleeSpans.contains r.span
  state.mapValues fun _ b => withSites src calls uses b

/-- Names in order, each once. -/
def sortedNames (names : List String) : List String :=
  (names.mergeSort fun a b => decide (a ≤ b)).eraseDups

/-- Warn about provided values that read state. -/
def providerReports (src : Source) (state : Table StateBinding) (providers : List ContextUse) :
    List Report :=
  providers.filterMap fun p =>
    p.value.bind fun value =>
      let reads := sortedNames ((namesUsed src value).filter state.contains)
      if reads.isEmpty then none
      else
        let listed := ", ".intercalate reads
        some (reportOn src .warning Code.contextValueSnapshot
          s!"{p.key} value reads state ({listed}); setContext captures it once, so consumers see later updates only through reactive objects"
          p.node s!"{p.key}.Provider")

/-! ### The model -/

/-- The names that decide how the expressions of a component are rendered. -/
def renderNames (props : ComponentProps) (body : Body) : Names where
  props := props.bindings.map (·.visibleName)
  propsIdentifier := props.identifier
  snippets := body.snippets.map (·.name)
  contexts := body.contextDefinitions.keys
  refs := body.refs.keys

/-- The model of the chosen component of a module. -/
def analyzeComponent (m : Module) (o : Options) (c : Choice) : Reporting Model := do
  let src := m.source
  addReports (choiceReports src c)
  let top ← readTopLevel m c.chosen c.candidates
  let props := propsOf src c.chosen
  let read ← readBody src c.chosen.function (bodyOfProps props top.contexts)
  let body := read.body
  let ((snippets, renderTree), found) ← renderBody src (renderNames props body) read
  addReports (providerReports src body.state found.providers)
  let model : Model :=
    { name := (nonEmpty? o.componentName).getD c.chosen.name
      node := c.chosen.function
      props
      state := setterSites src c.chosen.function body.state
      derived := body.derived
      effects := body.effects
      contexts := body.consumers ++ found.providers
      contextDefinitions := body.contextDefinitions
      refs := attachRefs found.refTargets body.refs
      renderTree
      slots := found.slots
      snippets
      locals := body.locals
      moduleItems := top.items
      styles := found.styles
      typescript := o.typescript }
  -- Names are checked last, when all that is declared is known.
  let visible := visibleNames src model c.chosen.name top.names body.declared
  addReports (reportUnresolved src model visible)
  return model

/-- The model of the component of a module. -/
def analyze (m : Module) (o : Options) : Reporting Model := do
  let choice ← chooseComponent m o.sourceName
  analyzeComponent m o choice

end Sveltify.Analysis
