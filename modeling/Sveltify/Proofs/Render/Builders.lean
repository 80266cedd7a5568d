import Sveltify.Proofs.Analysis.EarlyReturns
import Sveltify.Proofs.Render.Places
import Sveltify.Proofs.Syntax.Apart

namespace Sveltify.Render

open Text Component Analysis Node

/-!
# The builders, case by case

The builders of render trees call one another, so a fact about one is proved together with facts
about all. This is prepared here: each builder is taken apart once, and the induction along what
they read is stated once.

* `TagSort`, `sortOf`: what a JSX element stands for;
* `SideSteps`: what is needed of a property of steps, so that the steps beside the builders have it;
* `ChildCase`, `MappedCase`: what is built for a node between tags and for a call of `map`;
* `Added`: what an attribute of an element adds to the parts of its opening tag;
* `buildMarkup_eq`, `buildBare_other`, `buildChildren_cons`, `buildInstanceAttributes_cons`,
  `passedMarkup_of_bare`: each builder in terms of the others;
* `BuildCases`: the cases of a proof about all builders, each with what may be assumed of the parts
  that the builder reads; `BuildCases.ofExpression` is the induction.
-/

variable (src : Source) (names : Names)

/-! ### Steps beside the builders -/

/-- What is shown of steps that look something up, which may fail, and that write down the use of a
slot or a fault in an attribute. It passes through sequences. -/
structure SideSteps (P : ∀ {α : Type}, Build α → Prop) : Prop where
  pure : ∀ {α : Type} (a : α), P (Pure.pure a)
  throw : ∀ {α : Type} (e : Failure), P (throw e : Build α)
  bind : ∀ {α β : Type} {x : Build α} {f : α → Build β}, P x → (∀ a, P (f a)) → P (x >>= f)
  slot : ∀ name arguments,
    P (modify fun p => { p with slots := p.slots.insertNew name arguments } : Build PUnit)
  fault : ∀ message attr construct,
    P (reportAt src .error Code.unsupportedPattern message attr construct)

namespace SideSteps

variable {src} {P : ∀ {α : Type}, Build α → Prop} (h : SideSteps src P)

include h

theorem ofLift {α : Type} (x : Except Failure α) : P (liftM x : Build α) := by
  cases x with
  | ok a => exact h.pure a
  | error e => exact h.throw e

theorem ofNeed {α : Type} (x : Option α) : P (need x : Build α) := by
  cases x with
  | some a => exact h.pure a
  | none => exact h.throw .incomplete

/-- Looking for a slot is a side step. -/
theorem ofSlotUse (n : Node) : P (slotUse src names n) := by
  unfold slotUse
  split
  · exact h.pure _
  split
  · exact h.pure _
  dsimp only
  split
  · exact h.pure _
  split
  · exact h.pure _
  · exact h.bind (h.slot _ _) fun _ => h.pure _

/-- So is asking for markup. -/
theorem ofYieldsMarkup (n : Node) : P (yieldsMarkup src names n) := by
  refine h.bind (h.ofNeed _) fun inner => ?_
  split
  · exact h.pure _
  · exact h.bind (h.ofSlotUse names inner) fun _ => h.pure _

/-- So is asking any branch for it. -/
theorem ofAnyRendered (branches : List Node) : P (anyRendered src names branches) := by
  induction branches with
  | nil => exact h.pure _
  | cons b bs ih =>
    refine h.bind (h.ofYieldsMarkup names b) fun isMarkup => ?_
    split
    · exact h.pure _
    refine h.bind (h.ofLift _) fun isEmpty => ?_
    split
    · exact h.pure _
    · exact ih

/-- So is reading an attribute. -/
theorem ofAddAttribute (parts : TagParts) (attr : Node) : P (addAttribute src names parts attr) := by
  unfold addAttribute
  split
  · exact h.pure _
  refine h.bind (h.ofLift _) fun name => ?_
  dsimp only
  split
  · exact h.pure _
  · refine h.bind (h.ofNeed _) fun target => ?_
    split <;> exact h.pure _
  · refine h.bind (h.ofLift _) fun html => ?_
    split
    · exact h.bind (h.fault _ _ _) fun _ => h.pure _
    · exact h.pure _
  · split <;> exact h.pure _
  · exact h.pure _

/-- So is reading all attributes. -/
theorem ofAddAttributes (attributes : List Node) (parts : TagParts) :
    P (attributes.foldlM (addAttribute src names) parts) := by
  induction attributes generalizing parts with
  | nil => exact h.pure _
  | cons a rest ih =>
    rw [List.foldlM_cons]
    exact h.bind (h.ofAddAttribute names parts a) ih

end SideSteps

/-! ### JSX elements -/

/-- What a JSX element stands for. -/
inductive TagSort where
  | fragment
  | provider (key : String)
  | style
  | element (tag : String)
  | component (name : String)
deriving DecidableEq

/-- What a JSX element stands for, by its name. -/
def sortOf (n : Node) : TagSort :=
  match nonEmpty? (tagName? src n) with
  | none => .fragment
  | some name =>
    if n.kind == "jsx_fragment" || name == "Fragment" || name == "React.Fragment" then .fragment
    else
      match providedContext? names name with
      | some key => .provider key
      | none =>
        if name == "style" then .style
        else if startsLower name && !name.toList.contains '.' then .element name
        else .component name

/-- The render trees between the tags of a JSX element, if it has two. -/
def buildContent (nested : Bool) (n : Node) : Build (List RenderNode) :=
  if n.kind == "jsx_self_closing_element" then pure [] else buildChildren src names nested n.children

/-- The markup of an optional value, handed over under a name. -/
def passedOptional (name : String) : Option Node → Build (Option SlotContent)
  | none => return none
  | some value => passedMarkup src names name value

/-- The markup between the tags of a component instance: that of a render function, or else the
content. -/
def instanceContent (passed : Option SlotContent) (children : List RenderNode) :
    List SlotContent :=
  match passed, children with
  | some slot, _ => [slot]
  | none, [] => []
  | none, [only] => [.mk "children" none only]
  | none, children => [.mk "children" none (.fragment children)]

/-- A component instance with its content. -/
def buildInstance (n : Node) (name : String) (children : List RenderNode) : Build RenderNode := do
  let id ← freshId
  let made ← buildInstanceAttributes src names (attributesOf n)
  let passed ← passedOptional src names "children" (onlyChildExpression? src n)
  return .component { name, node := n, id, props := made.1 }
    (made.2 ++ instanceContent passed children)

/-- The render tree of a JSX element, given its content. -/
def buildTag (nested : Bool) (n : Node) (children : List RenderNode) :
    Build (Option RenderNode) :=
  match sortOf src names n with
  | .fragment => return some (.fragment children)
  | .provider key => some <$> buildProvider src nested n key children
  | .style => buildStyle src n
  | .element tag => some <$> buildElement src names n tag children
  | .component name => some <$> buildInstance src names n name children

/-- The content of a JSX element is built first, whatever it stands for. -/
theorem buildMarkup_eq (nested : Bool) (n : Node) :
    buildMarkup src names nested n =
      buildContent src names nested n >>= buildTag src names nested n := by
  rw [buildMarkup]
  unfold buildContent
  split
  all_goals
    -- The tests on the name of the tag are those of `sortOf`, in the same order.
    refine bind_congr fun children => ?_
    unfold buildTag sortOf
    dsimp only
    cases nonEmpty? (tagName? src n) with
    | none => rfl
    | some name =>
      dsimp only
      by_cases hfragment :
          (n.kind == "jsx_fragment" || name == "Fragment" || name == "React.Fragment") = true
      · rw [if_pos hfragment, if_pos hfragment]
      rw [if_neg hfragment, if_neg hfragment]
      cases providedContext? names name with
      | some key => rfl
      | none =>
        dsimp only
        by_cases hstyle : (name == "style") = true
        · rw [if_pos hstyle, if_pos hstyle]
        rw [if_neg hstyle, if_neg hstyle]
        by_cases hlower : (startsLower name && !name.toList.contains '.') = true
        · rw [if_pos hlower, if_pos hlower]
        rw [if_neg hlower, if_neg hlower]
        simp only [buildInstance, map_eq_pure_bind, bind_assoc, pure_bind]
        refine bind_congr fun id => bind_congr fun made => ?_
        split <;> rename_i h
        all_goals rw [h]
        all_goals rfl

/-! ### Content -/

/-- Does a node between the tags of a JSX element count as content? -/
def isContent (c : Node) : Bool :=
  !(c.field == some "open_tag" || c.field == some "close_tag" || !c.isNamed)
    && !(["jsx_opening_element", "jsx_closing_element", "comment"].contains c.kind)

/-- The render tree of a node between tags. -/
def buildChild (nested : Bool) (c : Node) : Build (Option RenderNode) :=
  if isContent c then
    if c.kind == "jsx_text" then
      let text := Jsx.cleanText (src.text c)
      return if text.isEmpty then none else some (.text text)
    else if c.kind == "html_character_reference" then return some (.text (src.text c))
    else if c.kind == "jsx_expression" then
      match innerExpression? c with
      | none => return none
      | some e =>
        if e.kind == "spread_element" then return some (.unsupported c "spread children" none)
        else buildExpression src names true e
    else if c.isJsx then buildMarkup src names nested c
    else return none
  else return none

/-- Children are built in order. -/
theorem buildChildren_cons (nested : Bool) (c : Node) (cs : List Node) :
    buildChildren src names nested (c :: cs) = (do
      let built ← buildChild src names nested c
      let rest ← buildChildren src names nested cs
      return built.toList ++ rest) := by
  rw [buildChildren]
  unfold buildChild isContent
  -- There are two tests for what is left out, and `isContent` is both.
  by_cases hfield : (c.field == some "open_tag" || c.field == some "close_tag" || !c.isNamed) = true
  · rw [if_pos hfield, hfield]
    rfl
  rw [if_neg hfield, Bool.eq_false_iff.2 hfield]
  by_cases htag :
      ["jsx_opening_element", "jsx_closing_element", "comment"].contains c.kind = true
  · rw [if_pos htag, htag]
    rfl
  rw [if_neg htag, Bool.eq_false_iff.2 htag, if_pos (show (!false && !false) = true from rfl)]
  split
  · rfl
  split
  · rfl
  split
  · split <;> rename_i h
    all_goals rw [h]
    all_goals dsimp only
    split <;> rfl
  split <;> rfl

/-- The piece is text or cannot be built, if there is a piece: nothing is shown inside it. -/
inductive IsLeaf : Option RenderNode → Prop
  | none : IsLeaf none
  | text (value : String) : IsLeaf (some (.text value))
  | unsupported (n : Node) (reason : String) (construct : Option String) :
      IsLeaf (some (.unsupported n reason construct))

/-- What is built for a node between tags: a leaf, the expression inside braces, or an element. -/
inductive ChildCase (nested : Bool) (c : Node) : Prop
  | leaf {r : Option RenderNode} (hbuild : buildChild src names nested c = pure r) (hleaf : IsLeaf r)
      (hjsx : (isContent c && c.isJsx) = false)
      (hspread : isContent c = true → c.kind = "jsx_expression" →
        ∀ e, innerExpression? c = some e → e.kind = "spread_element")
  | expression {e : Node} (hbuild : buildChild src names nested c = buildExpression src names true e)
      (hcontent : isContent c = true) (hkind : c.kind = "jsx_expression")
      (hinner : innerExpression? c = some e) (hspread : e.kind ≠ "spread_element")
  | element (hbuild : buildChild src names nested c = buildMarkup src names nested c)
      (hcontent : isContent c = true) (hkind : c.kind ≠ "jsx_expression") (hjsx : c.isJsx = true)

/-- What a child can be. -/
theorem childCase (nested : Bool) (c : Node) : ChildCase src names nested c := by
  cases hcontent : isContent c with
  | false =>
    exact .leaf (by rw [buildChild, hcontent]; rfl) .none (by simp [hcontent]) (by simp [hcontent])
  | true =>
    -- Only the kind `jsx_expression` is looked into for an expression.
    have plain {r : Option RenderNode} (hbuild : buildChild src names nested c = pure r)
        (hleaf : IsLeaf r) (hjsx : c.isJsx = false) (hkind : c.kind ≠ "jsx_expression") :
        ChildCase src names nested c :=
      .leaf hbuild hleaf (by simp [hjsx]) fun _ h => absurd h hkind
    by_cases htext : c.kind = "jsx_text"
    · refine plain (by rw [buildChild, hcontent, htext]; rfl) ?_ (by simp [isJsx, jsxKinds, htext])
        (by simp [htext])
      split
      · exact .none
      · exact .text _
    by_cases hreference : c.kind = "html_character_reference"
    · exact plain (by rw [buildChild, hcontent, hreference]; rfl) (.text _)
        (by simp [isJsx, jsxKinds, hreference]) (by simp [hreference])
    by_cases hkind : c.kind = "jsx_expression"
    · have notJsx : c.isJsx = false := by simp [isJsx, jsxKinds, hkind]
      cases hinner : innerExpression? c with
      | none =>
        exact .leaf (by simp [buildChild, hcontent, hkind, hinner]) .none (by simp [notJsx])
          (by simp [hinner])
      | some e =>
        by_cases hspread : e.kind = "spread_element"
        · exact .leaf (by simp [buildChild, hcontent, hkind, hinner, hspread])
            (.unsupported c "spread children" none) (by simp [notJsx]) (by simp [hinner, hspread])
        · exact .expression (by simp [buildChild, hcontent, hkind, hinner, hspread]) hcontent hkind
            hinner hspread
    have rest : buildChild src names nested c =
        if c.isJsx then buildMarkup src names nested c else pure none := by
      simp [buildChild, hcontent, htext, hreference, hkind]
    cases hjsx : c.isJsx with
    | true => exact .element (by rw [rest, hjsx]; rfl) hcontent hkind hjsx
    | false => exact plain (by rw [rest, hjsx]; rfl) .none hjsx hkind

/-! ### Attributes of elements -/

/-- The expression that an attribute holds as its value. -/
def valueExpression? (attr : Node) : Option Node := (attributeValue? attr).bind innerExpression?

/-- The value of an attribute stands in it. -/
theorem valueExpression_mem_preorder {a value : Node} (h : valueExpression? a = some value) :
    value ∈ a.preorder := by
  obtain ⟨raw, hraw, hinner⟩ := Option.bind_eq_some_iff.1 h
  exact preorder_trans (innerExpression_mem_preorder hinner) (attributeValue_mem_preorder hraw)

/-- The name of an attribute is its first part. -/
theorem yields_attributeName (attr : Node) :
    Yields (fun name => attr.firstNamed?.map src.text = some name)
      (liftM (attributeName src attr) : Build String) := by
  refine (Yields.lift _).mono fun name hname => ?_
  unfold attributeName at hname
  cases hfirst : attr.firstNamed? with
  | none =>
    rw [hfirst] at hname
    cases hname
  | some first =>
    rw [hfirst] at hname
    cases hname
    rfl

/-- The attribute is no spread and has the name. -/
def IsNamed (attr : Node) (name : String) : Prop :=
  attr.kind ≠ "jsx_expression" ∧ attr.firstNamed?.map src.text = some name

/-- What the parts of an opening tag are once an attribute has been sorted in. -/
inductive Added (parts : TagParts) (attr : Node) : TagParts → Prop
  | spread (hkind : attr.kind = "jsx_expression") :
      Added parts attr { parts with attributes := parts.attributes ++ (spreadAttribute? attr).toList }
  | key (named : IsNamed src attr "key") : Added parts attr parts
  | ref {value target : Node} (named : IsNamed src attr "ref")
      (hvalue : valueExpression? attr = some value) (htarget : value.bare? = some target)
      (hknown : (target.kind == "identifier" && names.refs.contains (src.text target)) = true) :
      Added parts attr { parts with ref := some (src.text target) }
  | refExpression {value target : Node} (named : IsNamed src attr "ref")
      (hvalue : valueExpression? attr = some value) (htarget : value.bare? = some target)
      (hunknown : (target.kind == "identifier" && names.refs.contains (src.text target)) = false) :
      Added parts attr { parts with refExpression := some value }
  | html {value : Node} {html : Option Node} (named : IsNamed src attr "dangerouslySetInnerHTML")
      (hvalue : valueExpression? attr = some value) (hhtml : innerHtml? src value = .ok html) :
      Added parts attr { parts with html }
  | event {name : String} {value : Node} (named : IsNamed src attr name)
      (hvalue : valueExpression? attr = some value) (hkey : name ≠ "key") (href : name ≠ "ref")
      (hhtml : name ≠ "dangerouslySetInnerHTML") (hevent : isEventName name = true) :
      Added parts attr
        { parts with events := parts.events ++ [{ name, handler := value, node := attr }] }
  | plain {name : String} (named : IsNamed src attr name) (hkey : name ≠ "key")
      (hplain : ∀ value, valueExpression? attr = some value →
        name ≠ "ref" ∧ name ≠ "dangerouslySetInnerHTML" ∧ isEventName name = false) :
      Added parts attr
        { parts with
          attributes := parts.attributes ++ [{ name, node := attr, value := attributeValue? attr }] }

/-- What an attribute can add. -/
theorem yields_addAttribute (parts : TagParts) (attr : Node) :
    Yields (Added src names parts attr) (addAttribute src names parts attr) := by
  unfold addAttribute
  split
  · rename_i hkind
    exact .pure (.spread (eq_of_beq hkind))
  rename_i hkind
  refine (yields_attributeName src attr).andThen fun name hname => ?_
  have named : IsNamed src attr name := ⟨fun h => hkind (beq_iff_eq.2 h), hname⟩
  dsimp only
  have value : (attributeValue? attr).bind innerExpression? = valueExpression? attr := rfl
  rw [value]
  split
  · exact .pure (.key named)
  · rename_i hvalue
    refine (Yields.need _).andThen fun target htarget => ?_
    split
    · exact .pure (.ref named hvalue htarget ‹_›)
    · exact .pure (.refExpression named hvalue htarget (Bool.eq_false_iff.2 ‹_›))
  · rename_i hvalue
    refine (Yields.lift _).andThen fun html hhtml => ?_
    split
    · exact .bind fun _ => .pure (.html named hvalue hhtml)
    · exact .pure (.html named hvalue hhtml)
  · rename_i notKey notRef notHtml hvalue
    split
    · exact .pure (.event named hvalue notKey notRef notHtml ‹_›)
    · exact .pure (.plain named notKey fun _ _ => ⟨notRef, notHtml, Bool.eq_false_iff.2 ‹_›⟩)
  · rename_i notKey hvalue
    exact .pure (.plain named notKey fun _ h => by rw [hvalue] at h; cases h)

/-! ### Attributes of instances -/

/-- The attribute of an instance goes to the markup handed over if it holds some, else to the
props. -/
def addToInstance (name : String) (attr : Node) (slot : Option SlotContent)
    (made : List Attribute × List SlotContent) : List Attribute × List SlotContent :=
  match slot with
  | some slot => (made.1, slot :: made.2)
  | none => ({ name, node := attr, value := attributeValue? attr } :: made.1, made.2)

/-- Attributes of a component are read in order. -/
theorem buildInstanceAttributes_cons (a : Node) (rest : List Node) :
    buildInstanceAttributes src names (a :: rest) =
      if a.kind == "jsx_expression" then do
        let made ← buildInstanceAttributes src names rest
        return ((spreadAttribute? a).toList ++ made.1, made.2)
      else do
        let name ← attributeName src a
        if name == "key" then buildInstanceAttributes src names rest
        else
          let slot ← passedOptional src names name (valueExpression? a)
          let made ← buildInstanceAttributes src names rest
          return addToInstance name a slot made := by
  rw [buildInstanceAttributes]
  split
  · rfl
  refine bind_congr fun name => ?_
  split
  · rfl
  dsimp only
  have value : valueExpression? a = (attributeValue? a).bind innerExpression? := rfl
  split <;> rename_i hraw
  · rw [hraw] at value
    rw [value]
    exact bind_congr fun slot => bind_congr fun made => by cases slot <;> rfl
  · rw [hraw, Option.bind_some] at value
    split <;> rename_i hvalue
    all_goals rw [value, hvalue]
    all_goals exact bind_congr fun slot => bind_congr fun made => by cases slot <;> rfl

/-! ### Markup that is handed over -/

/-- The markup that a value hands over, free of wrappers: its parameters and its expression. -/
def passedParts? (v : Node) : Option (Option Node × Node) :=
  if v.isJsx then some (none, v)
  else if v.isFunction && v.hasMarkup then
    (onlyReturn? v).map fun returned => (slotParameters v, returned)
  else none

/-- Build the markup that is handed over under a name. -/
def buildPassed (name : String) : Option (Option Node × Node) → Build (Option SlotContent)
  | none => return none
  | some parts => do
    let body ← buildExpression src names true parts.2
    return some (.mk name parts.1 (body.getD .nothing))

/-- A function that is passed is read without parentheses. -/
theorem passedMarkup_of_bare {value v : Node} (h : value.bare? = some v) (name : String) :
    passedMarkup src names name value = buildPassed src names name (passedParts? v) := by
  rw [passedMarkup]
  split
  · simp_all
  · rename_i v' h'
    obtain rfl : v = v' := by
      rw [h] at h'
      exact Option.some.inj h'
    unfold passedParts?
    split
    · rfl
    split
    · split <;> rename_i hreturn
      all_goals rw [hreturn]
      all_goals rfl
    · rfl

theorem passedMarkup_of_none {value : Node} (h : value.bare? = none) (name : String) :
    passedMarkup src names name value = throw .incomplete := by
  rw [passedMarkup]
  split <;> simp_all

/-- The expression of the markup that a value hands over stands in it. -/
theorem passedParts_mem_preorder {v body : Node} {parameters : Option Node}
    (h : passedParts? v = some (parameters, body)) : body ∈ v.preorder := by
  unfold passedParts? at h
  split at h
  · cases h
    exact mem_preorder_self _
  split at h
  · obtain ⟨returned, hreturned, hparts⟩ := Option.map_eq_some_iff.1 h
    cases hparts
    exact onlyReturn_mem_preorder hreturned
  · cases h

/-! ### Lists and values -/

/-- Is the expression a list whose items are rendered? -/
def isItemList (n : Node) : Except Failure Bool :=
  match mappedList? src n with
  | some mapped =>
    if mapped.2.isFunction then yieldsItems src names mapped.2 else .ok false
  | none => .ok false

/-- The render tree of a list, given what its callback binds and what its body is. -/
def buildItems (n : Node) (iterable : Option Node) :
    Option (Option Node × Option String) → Option (List Node × Option Node) →
      Build (Option RenderNode)
  | none, _ => return some (.unsupported n "destructured list index parameter" none)
  | some _, none =>
    return some (.unsupported n "list callback bodies may only declare constants and return JSX"
      none)
  | some _, some (_, none) => return some (.unsupported n "list callback does not return JSX" none)
  | some (item, index), some (declarations, some returned) => do
    let key ← keyOf? src returned
    let body ← buildExpression src names true returned
    return some (.list { node := n, iterable, item, index, key, declarations }
      (body.getD .nothing))

/-- The render tree of a call of `map` with its list and its callback. -/
def buildMapped (n : Node) : Option (Option Node × Node) → Build (Option RenderNode)
  | none => return none
  | some mapped =>
    buildItems src names n mapped.1 (callbackBindings src mapped.2) (callbackBody mapped.2)

/-- What is built for a call of `map`: a leaf if the list is not understood, or else its items. -/
inductive MappedCase (n : Node) : Prop
  | leaf {r : Option RenderNode} (hbuild : buildMapped src names n (mappedList? src n) = pure r)
      (hleaf : IsLeaf r)
  | items {iterable item : Option Node} {callback returned : Node} {index : Option String}
      {declarations : List Node} (hmapped : mappedList? src n = some (iterable, callback))
      (hbody : callbackBody callback = some (declarations, some returned))
      (hbuild : buildMapped src names n (mappedList? src n) =
        buildItems src names n iterable (some (item, index)) (some (declarations, some returned)))

/-- What a call on a list can be. -/
theorem mappedCase (n : Node) : MappedCase src names n := by
  cases hmapped : mappedList? src n with
  | none => exact .leaf (by rw [hmapped]; rfl) .none
  | some mapped =>
    obtain ⟨iterable, callback⟩ := mapped
    have build : buildMapped src names n (mappedList? src n) =
        buildItems src names n iterable (callbackBindings src callback) (callbackBody callback) := by
      rw [hmapped]
      rfl
    cases hbindings : callbackBindings src callback with
    | none => exact .leaf (by rw [build, hbindings]; rfl) (.unsupported ..)
    | some bindings =>
      obtain ⟨item, index⟩ := bindings
      cases hbody : callbackBody callback with
      | none => exact .leaf (by rw [build, hbindings, hbody]; rfl) (.unsupported ..)
      | some body =>
        obtain ⟨declarations, returned⟩ := body
        cases returned with
        | none => exact .leaf (by rw [build, hbindings, hbody]; rfl) (.unsupported ..)
        | some returned => exact .items hmapped hbody (by rw [build, hbindings, hbody])

/-- The render tree of an expression that has no parts of its own. -/
def buildValue (n : Node) : Build (Option RenderNode) := do
  match ← slotUse src names n with
  | some slot => return some slot
  | none =>
    if n.hasMarkup then
      return some (.unsupported n "JSX in this expression position cannot be converted" none)
    else return some (.expression n)

/-- An empty literal is no markup. -/
theorem not_isJsx_of_isEmptyLiteral {src : Source} {n : Node} (h : isEmptyLiteral src n = true) :
    n.isJsx = false := by
  simp only [isEmptyLiteral, Bool.or_eq_true, Bool.and_eq_true, beq_iff_eq, List.contains_iff_mem] at h
  rcases h with h | ⟨h, -⟩
  · simp only [emptyLiterals, List.mem_cons, List.not_mem_nil, or_false] at h
    rcases h with h | h | h | h <;> simp [isJsx, jsxKinds, h]
  · simp [isJsx, jsxKinds, h]

/-- An empty literal shows nothing. -/
theorem buildBare_empty {n : Node} (h : isEmptyLiteral src n = true) (nested : Bool) :
    buildBare src names nested n = return none := by
  rw [buildBare, if_pos h]

/-- Markup is built as an element. -/
theorem buildBare_markup {n : Node} (hempty : isEmptyLiteral src n = false)
    (h : n.isJsx = true) (nested : Bool) :
    buildBare src names nested n = buildMarkup src names nested n := by
  rw [buildBare, if_neg (by simp [hempty]), if_pos h]

/-- An expression that is no JSX and no condition is a list or a value. -/
theorem buildBare_other {n : Node} (hempty : isEmptyLiteral src n = false)
    (hjsx : n.isJsx = false) (hand : isConjunction n = false)
    (hternary : n.kind ≠ "ternary_expression") (nested : Bool) :
    buildBare src names nested n = (do
      if ← isItemList src names n then buildMapped src names n (mappedList? src n)
      else buildValue src names n) := by
  rw [buildBare, if_neg (by simp [hempty]), if_neg (by simp [hjsx]),
    if_neg (by simpa [isConjunction] using hand), if_neg (by simpa using hternary)]
  extract_lets rest
  -- `rest` is what follows on the test for a list.
  have goesOn (isList : Bool) : rest isList =
      if isList then buildMapped src names n (mappedList? src n) else buildValue src names n := by
    unfold rest
    cases isList with
    | false => rfl
    | true =>
      rw [if_pos rfl, if_pos rfl]
      split <;> rename_i h
      · rw [h]
        unfold buildMapped
        dsimp only
        split <;> rename_i hbindings
        · rw [hbindings]
          rfl
        · rw [hbindings]
          split <;> rename_i hbody
          all_goals rw [hbody]
          all_goals rfl
      · rw [h]
        rfl
  simp only [goesOn]
  unfold isItemList
  cases mappedList? src n with
  | none => rfl
  | some mapped =>
    dsimp only
    split <;> rfl

/-! ### Induction -/

/-- What is shown of expressions, of JSX elements and of the lists of nodes and attributes in them,
given the same of the parts that their builders read. -/
structure BuildCases (expression bareExpression element : Bool → Node → Prop)
    (content : Bool → List Node → Prop) (attributes : List Node → Prop) (passed : Node → Prop) :
    Prop where
  failed : ∀ {nested n}, n.bare? = none → expression nested n
  bare : ∀ {nested n m}, n.bare? = some m → bareExpression nested m → expression nested n
  empty : ∀ {nested n}, isEmptyLiteral src n = true → bareExpression nested n
  markup : ∀ {nested n}, isEmptyLiteral src n = false → n.isJsx = true → element nested n →
    bareExpression nested n
  conjunction : ∀ {nested n}, isEmptyLiteral src n = false → isConjunction n = true →
    (∀ right, n.field? "right" = some right → expression true right) → bareExpression nested n
  ternary : ∀ {nested n}, isEmptyLiteral src n = false → n.kind = "ternary_expression" →
    (∀ c, n.field? "consequence" = some c → expression true c) →
    (∀ c, n.field? "alternative" = some c → expression true c) → bareExpression nested n
  other : ∀ {nested n}, isEmptyLiteral src n = false → n.isJsx = false → isConjunction n = false →
    n.kind ≠ "ternary_expression" →
    (∀ iterable callback declarations returned, mappedList? src n = some (iterable, callback) →
      callbackBody callback = some (declarations, some returned) → expression true returned) →
    bareExpression nested n
  tag : ∀ {nested n}, content nested n.children → attributes (attributesOf n) →
    (∀ e, onlyChildExpression? src n = some e → passed e) → element nested n
  noContent : ∀ {nested}, content nested []
  nextChild : ∀ {nested c cs}, (∀ e, innerExpression? c = some e → expression true e) →
    (c.isJsx = true → element nested c) → content nested cs → content nested (c :: cs)
  noAttributes : attributes []
  nextAttribute : ∀ {a rest}, (∀ value, valueExpression? a = some value → passed value) →
    attributes rest → attributes (a :: rest)
  notPassed : ∀ {value}, value.bare? = none → passed value
  handed : ∀ {value v}, value.bare? = some v →
    (∀ parameters body, passedParts? v = some (parameters, body) → expression true body) →
    passed value

namespace BuildCases

variable {src : Source} {expression bareExpression element : Bool → Node → Prop}
  {content : Bool → List Node → Prop} {attributes : List Node → Prop} {passed : Node → Prop}

mutual

/-- All builders have the property, by induction on the source. -/
theorem ofExpression
    (h : BuildCases src expression bareExpression element content attributes passed)
    (nested : Bool) (n : Node) : expression nested n := by
  cases hbare : n.bare? with
  | none => exact h.failed hbare
  | some m =>
    have := size_bare hbare
    exact h.bare hbare (ofBare h nested m)
termination_by 7 * n.size + 4

theorem ofBare (h : BuildCases src expression bareExpression element content attributes passed)
    (nested : Bool) (n : Node) : bareExpression nested n := by
  cases hempty : isEmptyLiteral src n with
  | true => exact h.empty hempty
  | false =>
    cases hjsx : n.isJsx with
    | true => exact h.markup hempty hjsx (ofElement h nested n)
    | false =>
      cases hand : isConjunction n with
      | true =>
        refine h.conjunction hempty hand fun right hright => ?_
        have := size_field hright
        exact ofExpression h true right
      | false =>
        by_cases hternary : n.kind = "ternary_expression"
        · refine h.ternary hempty hternary (fun c hc => ?_) (fun c hc => ?_)
          all_goals
            have := size_field hc
            exact ofExpression h true c
        · refine h.other hempty hjsx hand hternary fun iterable callback ds returned hm hb => ?_
          have := size_mapCallback src hm
          have := size_callbackBody hb
          exact ofExpression h true returned
termination_by 7 * n.size + 3

theorem ofElement (h : BuildCases src expression bareExpression element content attributes passed)
    (nested : Bool) (n : Node) : element nested n := by
  have := size_eq n
  have := sizeAll_attributesOf n
  refine h.tag (ofContent h nested n.children) (ofAttributes h (attributesOf n)) fun e he => ?_
  have := size_onlyChildExpression src he
  exact ofPassed h e
termination_by 7 * n.size + 2

theorem ofContent (h : BuildCases src expression bareExpression element content attributes passed)
    (nested : Bool) (cs : List Node) : content nested cs := by
  cases cs with
  | nil => exact h.noContent
  | cons c cs =>
    have := size_pos c
    have := sizeAll_cons c cs
    refine h.nextChild (fun e he => ?_) (fun _ => ofElement h nested c) (ofContent h nested cs)
    have := size_innerExpression he
    exact ofExpression h true e
termination_by 7 * sizeAll cs + 5

theorem ofAttributes
    (h : BuildCases src expression bareExpression element content attributes passed)
    (attrs : List Node) : attributes attrs := by
  cases attrs with
  | nil => exact h.noAttributes
  | cons a rest =>
    have := size_pos a
    have := sizeAll_cons a rest
    refine h.nextAttribute (fun value hvalue => ?_) (ofAttributes h rest)
    obtain ⟨raw, hraw, hinner⟩ := Option.bind_eq_some_iff.1 hvalue
    have := size_attributeValue hraw
    have := size_innerExpression hinner
    exact ofPassed h value
termination_by 7 * sizeAll attrs + 6

theorem ofPassed (h : BuildCases src expression bareExpression element content attributes passed)
    (value : Node) : passed value := by
  cases hbare : value.bare? with
  | none => exact h.notPassed hbare
  | some v =>
    have := size_bare hbare
    refine h.handed hbare fun parameters body hparts => ?_
    have := size_le_of_mem_preorder (passedParts_mem_preorder hparts)
    exact ofExpression h true body
termination_by 7 * value.size + 5

end

end BuildCases

end Sveltify.Render
