import Sveltify.Component.Context
import Sveltify.Component.Props
import Sveltify.Diagnostic
import Sveltify.Jsx.Text
import Sveltify.Render.Expression
import Sveltify.Render.Tree
import Sveltify.Scope.Pattern
import Sveltify.Table

namespace Sveltify.Render

open Text Component

/-!
# From rendered expressions to render trees

* `Names`: the names of a component that decide how an expression is read;
* `Progress`: what is found on the way: refs, providers, slots, styles and reports;
* `buildExpression`: the render tree of an expression in a place where it is rendered.

Conditions, lists and the braces between tags put what is inside them under `nested`: whether it
is rendered may change while the component lives.
-/

/-- The names of a component that decide how an expression is read. -/
structure Names where
  props : List String := []
  /-- The one name that all props are received under. -/
  propsIdentifier : Option String := none
  snippets : List String := []
  contexts : List String := []
  refs : List String := []
deriving Repr

/-- What is found while render trees are built. -/
structure Progress where
  /-- How many elements and component instances have been numbered. -/
  counter : Nat := 0
  /-- The first element that each ref is bound to. -/
  refTargets : Table Nat := ∅
  providers : List ContextUse := []
  /-- The slots that are rendered, with the arguments of the first use. -/
  slots : Table (List String) := ∅
  styles : List String := []
  reports : List Report := []
deriving Repr

instance : Inhabited Progress := ⟨{}⟩

/-- A step of building: it may find things, and it may fail. -/
abbrev Build := EStateM Failure Progress

variable (src : Source) (names : Names)

/-- The next number for an element or a component instance. -/
def freshId : Build Nat := do
  modify fun p => { p with counter := p.counter + 1 }
  return (← get).counter

/-- Add a report about a node. -/
def reportAt (severity : Severity) (code message : String) (n : Node) (construct : String) :
    Build Unit :=
  let place := src.startOf n
  let report : Report :=
    { severity, stage := .analyze, code, message, line := some place.line,
      column := some place.column, construct := some construct }
  modify fun p => { p with reports := p.reports ++ [report] }

/-! ### Slots -/

/-- The slot that a callee names: a snippet, a prop, or a member of the props. -/
def namedSlot? (callee : Node) : Option String :=
  if callee.kind == "identifier" then
    let name := src.text callee
    if names.snippets.contains name || names.props.contains name then some name else none
  else if callee.kind == "member_expression" then
    match nonEmpty? names.propsIdentifier, callee.field? "object", callee.field? "property" with
    | some props, some object, some property =>
      if src.text object == props then some (src.text property) else none
    | _, _, _ => none
  else none

/-- The callee and the arguments of a call, or the expression itself without arguments. -/
def calleeAndArguments (n : Node) : Option (Node × List Node) :=
  if n.kind == "call_expression" then
    (n.field? "function").map fun callee =>
      (callee, ((n.field? "arguments").map Node.namedChildren).getD [])
  else some (n, [])

/-- The use of a slot that an expression is, if it is one. A slot that the component receives is
remembered with the arguments of its first use. -/
def slotUse (n : Node) : Build (Option RenderNode) :=
  match calleeAndArguments n with
  | none => return none
  | some (callee, arguments) =>
    match namedSlot? src names callee with
    | none => return none
    | some name =>
      let isSnippet := names.snippets.contains name
      -- A prop that is not called is a value, unless it is the content of the component.
      if n.kind != "call_expression" && name != "children" && !isSnippet then return none
      else
        let calleeText := src.text callee
        -- A snippet of the component itself is there; one that it receives may be missing.
        if isSnippet && calleeText == name then return some (.slot name name arguments false)
        else do
          modify fun p => { p with slots := p.slots.insertNew name (arguments.map src.text) }
          return some (.slot name calleeText arguments true)

/-- Does the expression hold JSX or use a slot? -/
def yieldsMarkup (n : Node) : Build Bool := do
  let inner ← need n.bare?
  if inner.hasMarkup then return true
  else return (← slotUse src names inner).isSome

/-- Is one of the branches rendered or empty? -/
def anyRendered : List Node → Build Bool
  | [] => return false
  | b :: bs => do
    if ← yieldsMarkup src names b then return true
    else if ← rendersNothing src b then return true
    else anyRendered bs

/-- Does a callback of `map` return JSX or a call of a snippet? -/
def yieldsItems (callback : Node) : Except Failure Bool :=
  if callback.hasMarkup then .ok true
  else
    match onlyReturn? callback with
    | none => .ok false
    | some returned => do
      let returned ← need returned.bare?
      if returned.kind == "call_expression" then
        return (returned.field? "function").any fun callee =>
          callee.kind == "identifier" && names.snippets.contains (src.text callee)
      else return false

/-! ### Attributes -/

/-- The argument of a spread, or the spread itself if it has none. -/
def spreadArgument (spread : Node) : Node := spread.firstNamed?.getD spread

/-- The attribute that a spread between braces makes, if it is one. -/
def spreadAttribute? (container : Node) : Option Attribute :=
  match innerExpression? container with
  | some inner =>
    if inner.kind == "spread_element" then
      some { name := "...", node := container, value := some (spreadArgument inner),
             isSpread := true }
    else none
  | none => none

/-- The parts of the opening tag of a DOM element. -/
structure TagParts where
  attributes : List Attribute := []
  events : List EventBinding := []
  ref : Option String := none
  refExpression : Option Node := none
  html : Option Node := none

/-- Sort one attribute of a DOM element in. -/
def addAttribute (parts : TagParts) (attr : Node) : Build TagParts :=
  if attr.kind == "jsx_expression" then
    return { parts with attributes := parts.attributes ++ (spreadAttribute? attr).toList }
  else do
    let name ← attributeName src attr
    let raw := attributeValue? attr
    let plain : Attribute := { name, node := attr, value := raw }
    match name, raw.bind innerExpression? with
    | "key", _ => return parts
    | "ref", some value =>
      let target ← need value.bare?
      let targetText := src.text target
      if target.kind == "identifier" && names.refs.contains targetText then
        return { parts with ref := some targetText }
      else return { parts with refExpression := some value }
    | "dangerouslySetInnerHTML", some value =>
      let html ← innerHtml? src value
      if html.isNone then
        reportAt src .error Code.unsupportedPattern
          "dangerouslySetInnerHTML must be an object literal with __html" attr
          "dangerouslySetInnerHTML"
      return { parts with html }
    | name, some value =>
      if isEventName name then
        return { parts with events := parts.events ++ [{ name, handler := value, node := attr }] }
      else
        return { parts with attributes := parts.attributes ++ [plain] }
    | _, none => return { parts with attributes := parts.attributes ++ [plain] }

/-- A DOM element with its content. -/
def buildElement (n : Node) (tag : String) (children : List RenderNode) : Build RenderNode := do
  let id ← freshId
  let parts ← (attributesOf n).foldlM (addAttribute src names) {}
  match parts.ref with
  | some ref => modify fun p => { p with refTargets := p.refTargets.insertNew ref id }
  | none => pure ()
  -- The children are built by now; if the content is given as text, they are dropped.
  let children := match parts.html with
    | some html => [.rawHtml html]
    | none => children
  return .element
    { tag, node := n, id, attributes := parts.attributes, events := parts.events, ref := parts.ref,
      refExpression := parts.refExpression, html := parts.html } children

/-! ### Providers and styles -/

/-- The context that a tag provides. -/
def providedContext? (name : String) : Option String :=
  if ".Provider".toList.isSuffixOf name.toList then
    some (String.ofList (name.toList.take (name.length - ".Provider".length)))
  else if names.contexts.contains name then some name
  else none

/-- The value of the last attribute `value` of a list, as far as it is an expression. -/
def providedValue (value : Option Node) : List Node → Except Failure (Option Node)
  | [] => .ok value
  | a :: rest => do
    if ← isAttributeNamed src "value" a then
      providedValue ((attributeValue? a).bind innerExpression?) rest
    else providedValue value rest

/-- A provider of a context renders its content; the value is set when the component starts. -/
def buildProvider (nested : Bool) (n : Node) (key : String) (children : List RenderNode) :
    Build RenderNode := do
  let value ← providedValue src none (attributesOf n)
  if nested then
    reportAt src .warning Code.contextProviderHoisted
      s!"{key} provider is rendered conditionally; setContext runs once during component initialisation"
      n s!"{key}.Provider"
  let provider : ContextUse := { key, direction := .provide, node := n, value, isNested := nested }
  modify fun p => { p with providers := p.providers ++ [provider] }
  return .fragment children

/-- The style rules between the tags of a `style` element, or none if they are computed. -/
def styleParts : List Node → Except Failure (Option (List String))
  | [] => .ok (some [])
  | c :: cs =>
    if c.kind == "jsx_text" then do
      return (← styleParts cs).map (src.text c :: ·)
    else if c.kind == "jsx_expression" then
      match innerExpression? c with
      | none => styleParts cs
      | some e => do
        let e ← need e.bare?
        if e.kind == "string"
            || e.kind == "template_string" && (e.childOfKind? ["template_substitution"]).isNone then
          return (← styleParts cs).map (withoutEnds (src.text e) :: ·)
        else return none
    else styleParts cs

/-- Is one of the attributes the plain attribute `global`? -/
def isGlobalStyle (n : Node) : Except Failure Bool := do
  return (← findAttribute? src "global" (attributesOf n)).isSome

/-- A `style` element renders nothing; its rules are collected. -/
def buildStyle (n : Node) : Build (Option RenderNode) := do
  let isGlobal ← isGlobalStyle src n
  match ← styleParts src n.children with
  | none => return some (.unsupported n "dynamic <style> content" none)
  | some parts =>
    let css := strip ("\n".intercalate (parts.map (stripOf (· == '\n'))))
    if !css.isEmpty then
      let css := if isGlobal then ":global \x7b\n" ++ css ++ "\n\x7d" else css
      modify fun p => { p with styles := p.styles ++ [css] }
    return none

/-! ### Lists -/

/-- The statements of a callback of `map`, if they only declare constants and then return: the
declarations, and the expression that is returned. -/
def callbackParts : List Node → Option (List Node × Option Node)
  | [] => some ([], none)
  | s :: rest =>
    if s.kind == "lexical_declaration" && !s.hasMarkup then
      (callbackParts rest).map fun (ds, r) => (s :: ds, r)
    -- Only the last statement may return.
    else if s.kind == "return_statement" && rest.isEmpty then some ([], s.firstNamed?)
    else none

theorem size_callbackParts {ss ds : List Node} {r : Node}
    (h : callbackParts ss = some (ds, some r)) : r.size < Node.sizeAll ss := by
  induction ss generalizing ds with
  | nil => simp [callbackParts] at h
  | cons s rest ih =>
    have hpos := Node.size_pos s
    rw [callbackParts] at h
    simp only [Node.sizeAll_cons]
    split at h
    · cases hrest : callbackParts rest with
      | none => simp [hrest] at h
      | some p =>
        obtain ⟨ds', r'⟩ := p
        simp only [hrest, Option.map_some, Option.some.injEq, Prod.mk.injEq] at h
        obtain ⟨_, rfl⟩ := h
        have := ih hrest
        omega
    · split at h
      · simp only [Option.some.injEq, Prod.mk.injEq] at h
        have := Node.size_firstNamed h.2
        omega
      · simp at h

/-- The body of a callback of `map`: declarations, and what is returned. -/
def callbackBody (callback : Node) : Option (List Node × Option Node) :=
  match callback.field? "body" with
  | none => some ([], none)
  | some body =>
    if body.kind == "statement_block" then callbackParts body.namedChildren
    else some ([], some body)

theorem size_callbackBody {f r : Node} {ds : List Node} (h : callbackBody f = some (ds, some r)) :
    r.size < f.size := by
  unfold callbackBody at h
  split at h
  · simp at h
  · rename_i body hbody
    have h₁ := Node.size_field hbody
    split at h
    · have h₂ := size_callbackParts h
      have h₃ := Node.sizeAll_namedChildren body
      omega
    · simp only [Option.some.injEq, Prod.mk.injEq] at h
      obtain ⟨_, rfl⟩ := h
      exact h₁

/-- The item and the index that the parameters of a callback bind; an index has to be a plain
name. -/
def callbackBindings (callback : Node) : Option (Option Node × Option String) :=
  match Scope.parametersOf callback with
  | [] => some (none, none)
  | [item] => some (some (Scope.patternOf item), none)
  | item :: index :: _ =>
    let index := Scope.patternOf index
    if index.kind == "identifier" then
      some (some (Scope.patternOf item), some (src.text index))
    else none

/-! ### Functions between tags -/

/-- The only expression between the tags of a JSX element, if there is nothing else. -/
def onlyChildExpression? (n : Node) : Option Node :=
  if n.kind == "jsx_element" then
    let children := n.namedChildren.filter fun c =>
      c.kind != "jsx_opening_element" && c.kind != "jsx_closing_element"
        && !(c.kind == "jsx_text" && isAllBlank (src.text c))
    match children with
    | [only] => if only.kind == "jsx_expression" then innerExpression? only else none
    | _ => none
  else none

theorem size_onlyChildExpression {n e : Node} (h : onlyChildExpression? src n = some e) :
    e.size < n.size := by
  unfold onlyChildExpression? at h
  split at h
  · simp only at h
    split at h
    · rename_i only hchildren
      have hmem : only ∈ n.namedChildren := by
        have : only ∈ n.namedChildren.filter _ := hchildren ▸ List.mem_singleton.2 rfl
        exact (List.mem_filter.1 this).1
      have h₁ := Node.size_namedChild hmem
      split at h
      · have h₂ := size_innerExpression h
        omega
      · simp at h
    · simp at h
  · simp at h

/-! ### Building -/

mutual

/-- The render tree of an expression that is rendered; none if it renders nothing. -/
def buildExpression (nested : Bool) (n : Node) : Build (Option RenderNode) :=
  match _h : n.bare? with
  | none => throw .incomplete
  | some m => buildBare nested m
termination_by 7 * n.size + 4
decreasing_by
  have := Node.size_bare _h
  omega

/-- The render tree of an expression without wrappers. -/
def buildBare (nested : Bool) (n : Node) : Build (Option RenderNode) :=
  if isEmptyLiteral src n then return none
  else if n.isJsx then buildMarkup nested n
  else if n.kind == "binary_expression" && operator? n == some "&&" then
    match _h : n.field? "right" with
    | none => return none
    | some right => do
      match ← buildExpression true right with
      | none => return none
      | some consequent => return some (.conditional (n.field? "left") consequent none)
  else if n.kind == "ternary_expression" then do
    let branches := (n.field? "consequence").toList ++ (n.field? "alternative").toList
    -- A ternary without markup in its branches is a plain value.
    if ← anyRendered src names branches then
      let consequent ← match _h : n.field? "consequence" with
        | some c => buildExpression true c
        | none => pure none
      let alternate ← match _h : n.field? "alternative" with
        | some c => buildExpression true c
        | none => pure none
      return some (.conditional (n.field? "condition") (consequent.getD .nothing) alternate)
    else return some (.expression n)
  else do
    let isList ← match mappedList? src n with
      | some (_, callback) =>
        if callback.isFunction then (yieldsItems src names callback : Build Bool) else pure false
      | none => pure false
    if isList then
      match _h : mappedList? src n with
      | some (iterable, callback) =>
        match callbackBindings src callback with
        | none => return some (.unsupported n "destructured list index parameter" none)
        | some (item, index) =>
          match _h' : callbackBody callback with
          | none =>
            return some (.unsupported n
              "list callback bodies may only declare constants and return JSX" none)
          | some (_, none) => return some (.unsupported n "list callback does not return JSX" none)
          | some (declarations, some returned) =>
            let key ← keyOf? src returned
            let body ← buildExpression true returned
            return some (.list { node := n, iterable, item, index, key, declarations }
              (body.getD .nothing))
      | none => return none
    else
      match ← slotUse src names n with
      | some slot => return some slot
      | none =>
        if n.hasMarkup then
          return some (.unsupported n "JSX in this expression position cannot be converted" none)
        else return some (.expression n)
termination_by 7 * n.size + 3
decreasing_by
  · omega
  · have := Node.size_field _h
    omega
  · have := Node.size_field _h
    omega
  · have := Node.size_field _h
    omega
  · have := size_mapCallback src _h
    have := size_callbackBody _h'
    omega

/-- The render tree of a JSX element. -/
def buildMarkup (nested : Bool) (n : Node) : Build (Option RenderNode) := do
  let children ←
    if n.kind == "jsx_self_closing_element" then pure [] else buildChildren nested n.children
  match nonEmpty? (tagName? src n) with
  | none => return some (.fragment children)
  | some name =>
    if n.kind == "jsx_fragment" || name == "Fragment" || name == "React.Fragment" then
      return some (.fragment children)
    else
      match providedContext? names name with
      | some key => some <$> buildProvider src nested n key children
      | none =>
        if name == "style" then buildStyle src n
        else if startsLower name && !name.toList.contains '.' then
          some <$> buildElement src names n name children
        else do
          let id ← freshId
          let (props, slots) ← buildInstanceAttributes (attributesOf n)
          -- A lone function or piece of markup between the tags is built once more, to be handed
          -- over.
          let renderFunction ← match _h : onlyChildExpression? src n with
            | some e => passedMarkup "children" e
            | none => pure none
          let content := match renderFunction, children with
            | some slot, _ => [slot]
            | none, [] => []
            | none, [only] => [.mk "children" none only]
            | none, children => [.mk "children" none (.fragment children)]
          return some (.component { name, node := n, id, props } (slots ++ content))
termination_by 7 * n.size + 2
decreasing_by
  · have := sizeAll_attributesOf n
    omega
  · have := size_onlyChildExpression src _h
    omega
  · have := Node.size_eq n
    omega

/-- The render trees between the tags of a JSX element. -/
def buildChildren (nested : Bool) : List Node → Build (List RenderNode)
  | [] => return []
  | c :: cs => do
    let built ←
      if c.field == some "open_tag" || c.field == some "close_tag" || !c.isNamed then pure none
      else if ["jsx_opening_element", "jsx_closing_element", "comment"].contains c.kind then
        pure none
      else if c.kind == "jsx_text" then
        let text := Jsx.cleanText (src.text c)
        pure (if text.isEmpty then none else some (.text text))
      else if c.kind == "html_character_reference" then pure (some (.text (src.text c)))
      else if c.kind == "jsx_expression" then
        match _h : innerExpression? c with
        | none => pure none
        | some e =>
          if e.kind == "spread_element" then pure (some (.unsupported c "spread children" none))
          else buildExpression true e
      else if c.isJsx then buildMarkup nested c
      else pure none
    let rest ← buildChildren nested cs
    return built.toList ++ rest
termination_by cs => 7 * Node.sizeAll cs + 5
decreasing_by
  · have := Node.size_pos c
    simp only [Node.sizeAll_cons]
    omega
  · have := size_innerExpression _h
    simp only [Node.sizeAll_cons]
    omega
  · simp only [Node.sizeAll_cons]
    omega

/-- The props and the markup that the attributes of a component instance hand to it. -/
def buildInstanceAttributes : List Node → Build (List Attribute × List SlotContent)
  | [] => return ([], [])
  | a :: rest => do
    if a.kind == "jsx_expression" then
      let (props, slots) ← buildInstanceAttributes rest
      return ((spreadAttribute? a).toList ++ props, slots)
    else
      let name ← attributeName src a
      if name == "key" then buildInstanceAttributes rest
      else
        let slot ← match _h : attributeValue? a with
          | none => pure none
          | some raw =>
            match _h' : innerExpression? raw with
            | none => pure none
            | some value => passedMarkup name value
        let (props, slots) ← buildInstanceAttributes rest
        match slot with
        | some slot => return (props, slot :: slots)
        | none => return ({ name, node := a, value := attributeValue? a } :: props, slots)
termination_by attributes => 7 * Node.sizeAll attributes + 6
decreasing_by
  · have := Node.size_pos a
    simp only [Node.sizeAll_cons]
    omega
  · have := Node.size_pos a
    simp only [Node.sizeAll_cons]
    omega
  · have := Node.size_pos a
    simp only [Node.sizeAll_cons]
    omega
  · have := size_attributeValue _h
    have := size_innerExpression _h'
    simp only [Node.sizeAll_cons]
    omega

/-- The markup that a value hands to a component instance: JSX, or what a function returns. -/
def passedMarkup (name : String) (value : Node) : Build (Option SlotContent) :=
  match _h : value.bare? with
  | none => throw .incomplete
  | some v =>
    if v.isJsx then do
      let body ← buildExpression true v
      return some (.mk name none (body.getD .nothing))
    else if v.isFunction && v.hasMarkup then
      match _h' : onlyReturn? v with
      | none => return none
      | some returned => do
        let body ← buildExpression true returned
        return some (.mk name ((v.field? "parameters").or (v.field? "parameter"))
          (body.getD .nothing))
    else return none
termination_by 7 * value.size + 5
decreasing_by
  · have := Node.size_bare _h
    omega
  · have := Node.size_bare _h
    have := size_onlyReturn _h'
    omega

end

/-- The render tree of an optional expression. -/
def buildOptional (nested : Bool) : Option Node → Build (Option RenderNode)
  | none => return none
  | some n => buildExpression src names nested n

end Sveltify.Render
