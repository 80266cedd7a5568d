import Sveltify.Proofs.Render.Findings

namespace Sveltify.Render

open Text Component Analysis Scope Node List

/-!
# What an expression shows

An expression that is rendered shows some of its parts: the content of a tag, the branches of a
condition, the items of a list, the markup that is handed to an instance. Besides, some of its
expressions are evaluated as they stand. Both are told here from the syntax alone.

* `shownParts`, `ownExpressions`: the parts that an expression shows, and the expressions that are
  evaluated for it;
* `Shown`, `Carried`: the same at any depth. The name of a tag, the value of a provider and a `key`
  outside of lists are not carried;
* `showsNothing`: is there nothing to show at all?
* `mem_preorder_of_shown`, `mem_preorder_of_carried`: what is shown or carried stands in the
  expression.
-/

variable (src : Source) (names : Names)

/-! ### Slots and conditions -/

/-- The arguments of the slot that an expression uses, if it uses one. -/
def slotArguments? (n : Node) : Option (List Node) :=
  (calleeAndArguments n).bind fun call =>
    (namedSlot? src names call.1).bind fun name =>
      if n.kind != "call_expression" && name != "children" && !names.snippets.contains name then none
      else some call.2

/-- Does a branch of a condition hold markup, use a slot or render nothing? -/
def isRenderedBranch (branch : Node) : Bool :=
  branch.bare?.any fun m =>
    m.hasMarkup || (slotArguments? src names m).isSome || isEmptyLiteral src m

/-- Is one of the two branches of a condition rendered? -/
def isRenderedCondition (n : Node) : Bool :=
  ((n.field? "consequence").toList ++ (n.field? "alternative").toList).any
    (isRenderedBranch src names)

/-! ### Attributes -/

/-- The name of an attribute that is no spread. -/
def plainName? (attr : Node) : Option String :=
  if attr.kind == "jsx_expression" then none else attr.firstNamed?.map src.text

/-- The value that a spread hands over. -/
def spreadValue? (attr : Node) : Option Node :=
  if attr.kind == "jsx_expression" then (spreadAttribute? attr).bind (·.value) else none

/-- Is the attribute one that is not written as an attribute: a ref, or content given as text? -/
def isTakenOut (attr : Node) : Bool :=
  (plainName? src attr == some "ref" || plainName? src attr == some "dangerouslySetInnerHTML")
    && (valueExpression? attr).isSome

/-- The value of an attribute of an element as it is written; an event has a handler. -/
def writtenValue? (attr : Node) : Option Node :=
  if attr.kind == "jsx_expression" then spreadValue? attr
  else if plainName? src attr == some "key" || isTakenOut src attr then none
  else if (plainName? src attr).any isEventName then (valueExpression? attr).or (attributeValue? attr)
  else attributeValue? attr

/-- Is the expression the name of a ref? -/
def isRefName (n : Node) : Bool := n.kind == "identifier" && names.refs.contains (src.text n)

/-- The expression that an attribute `ref` holds, if it is not the name of a ref. -/
def refValue? (attr : Node) : Option Node :=
  if plainName? src attr == some "ref" then
    (valueExpression? attr).filter fun value => !value.bare?.any (isRefName src names)
  else none

/-- What an attribute says about content that is given as text. -/
def htmlValue? (attr : Node) : Option (Option Node) :=
  if plainName? src attr == some "dangerouslySetInnerHTML" then
    (valueExpression? attr).map fun value => (innerHtml? src value).toOption.join
  else none

/-- The content of an element that is given as text; the last attribute counts. -/
def htmlOf (attributes : List Node) : Option Node :=
  (attributes.filterMap (htmlValue? src)).getLast?.join

/-- The expression of the markup that a value hands over. -/
def handedBody? (value : Node) : Option Node := (value.bare?.bind passedParts?).map (·.2)

/-- The expression of the markup that an attribute hands to a component instance. -/
def attributeBody? (attr : Node) : Option Node :=
  if attr.kind == "jsx_expression" || plainName? src attr == some "key" then none
  else (valueExpression? attr).bind handedBody?

/-- The value of an attribute of a component instance, if it is a prop. -/
def propValue? (attr : Node) : Option Node :=
  if attr.kind == "jsx_expression" then spreadValue? attr
  else if plainName? src attr == some "key" || (attributeBody? src attr).isSome then none
  else attributeValue? attr

/-! ### JSX elements -/

/-- What a node between tags shows. -/
def childPart? (c : Node) : Option Node :=
  if isContent c then
    if c.kind == "jsx_expression" then (innerExpression? c).filter (·.kind != "spread_element")
    else if c.isJsx then some c else none
  else none

/-- Text, and an expression that is spread, have no part. -/
theorem childPart_of_leaf {c : Node} (hjsx : (isContent c && c.isJsx) = false)
    (hspread : isContent c = true → c.kind = "jsx_expression" →
      ∀ e, innerExpression? c = some e → e.kind = "spread_element") : childPart? c = none := by
  unfold childPart?
  split
  · rename_i hcontent
    split
    · rename_i hkind
      exact Option.filter_eq_none_iff.2 fun e he => by simp [hspread hcontent (eq_of_beq hkind) e he]
    · have notJsx : c.isJsx = false := by simpa [hcontent] using hjsx
      simp [notJsx]
  · rfl

/-- An expression between braces is the part. -/
theorem childPart_of_expression {c e : Node} (hcontent : isContent c = true)
    (hkind : c.kind = "jsx_expression") (hinner : innerExpression? c = some e)
    (hspread : e.kind ≠ "spread_element") : childPart? c = some e := by
  simp [childPart?, hcontent, hkind, hinner, hspread, Option.filter_some]

/-- An element is a part itself. -/
theorem childPart_of_isJsx {c : Node} (hcontent : isContent c = true)
    (hkind : c.kind ≠ "jsx_expression") (hjsx : c.isJsx = true) : childPart? c = some c := by
  simp [childPart?, hcontent, hkind, hjsx]

/-- What stands between the tags of a JSX element. -/
def contentParts (n : Node) : List Node :=
  if n.kind == "jsx_self_closing_element" then [] else n.children.filterMap childPart?

/-- What a component instance is handed between its tags: a lone expression that is markup, or the
content. -/
def instanceParts (n : Node) : List Node :=
  match (onlyChildExpression? src n).bind handedBody? with
  | some body => [body]
  | none => contentParts n

/-- The parts that a JSX element shows. -/
def elementParts (n : Node) : List Node :=
  match sortOf src names n with
  | .fragment | .provider _ => contentParts n
  | .style => []
  | .element _ => if (htmlOf src (attributesOf n)).isSome then [] else contentParts n
  | .component _ => (attributesOf n).filterMap (attributeBody? src) ++ instanceParts src n

/-- The expressions that a JSX element evaluates. -/
def elementExpressions (n : Node) : List Node :=
  match sortOf src names n with
  | .element _ =>
    (attributesOf n).filterMap (writtenValue? src)
      ++ ((attributesOf n).filterMap (refValue? src names)).getLast?.toList
      ++ (htmlOf src (attributesOf n)).toList
  | .component _ => (attributesOf n).filterMap (propValue? src)
  | _ => []

/-- Is the element a `style` element whose rules are fixed? -/
def isFixedStyle (n : Node) : Bool :=
  sortOf src names n == .style && (styleParts src n.children).toOption.join.isSome

/-! ### Expressions -/

/-- Is the expression a list whose items are rendered? -/
def isRenderedList (n : Node) : Bool := (isItemList src names n).toOption.getD false

/-- The expressions that a list evaluates, and the one that its callback returns. -/
def listParts? (n : Node) : Option (List Node × Node) :=
  (mappedList? src n).bind fun mapped =>
    (callbackBindings src mapped.2).bind fun _ =>
      (callbackBody mapped.2).bind fun body =>
        body.2.map fun returned =>
          (mapped.1.toList ++ (body.1 ++ (keyOf? src returned).toOption.join.toList), returned)

/-- The expressions that a value evaluates: the arguments of a slot, or the value itself unless it
holds markup. -/
def valueExpressions (n : Node) : List Node :=
  match slotArguments? src names n with
  | some arguments => arguments
  | none => if n.hasMarkup then [] else [n]

/-- Is there nothing to show? -/
def showsNothing (n : Node) : Bool :=
  match _h : n.bare? with
  | none => false
  | some m =>
    isEmptyLiteral src m ||
      if m.isJsx then isFixedStyle src names m
      else if isConjunction m then
        match _h' : m.field? "right" with
        | some right => showsNothing right
        | none => true
      else false
termination_by n.size
decreasing_by
  have := size_bare _h
  have := size_field _h'
  omega

/-- Is there nothing to show of an expression without wrappers? -/
def bareShowsNothing (m : Node) : Bool :=
  isEmptyLiteral src m ||
    if m.isJsx then isFixedStyle src names m
    else isConjunction m && (m.field? "right").all (showsNothing src names)

/-- The parts that an expression without wrappers shows. -/
def bareParts (m : Node) : List Node :=
  if isEmptyLiteral src m then []
  else if m.isJsx then elementParts src names m
  else if isConjunction m then (m.field? "right").toList
  else if m.kind == "ternary_expression" then
    if isRenderedCondition src names m then
      (m.field? "consequence").toList ++ (m.field? "alternative").toList
    else []
  else if isRenderedList src names m then (listParts? src m).toList.map (·.2)
  else []

/-- The expressions that an expression without wrappers evaluates. -/
def bareExpressions (m : Node) : List Node :=
  if isEmptyLiteral src m then []
  else if m.isJsx then elementExpressions src names m
  else if isConjunction m then
    if bareShowsNothing src names m then [] else (m.field? "left").toList
  else if m.kind == "ternary_expression" then
    if isRenderedCondition src names m then (m.field? "condition").toList else [m]
  else if isRenderedList src names m then (listParts? src m).toList.flatMap (·.1)
  else valueExpressions src names m

/-- The parts that an expression shows. -/
def shownParts (n : Node) : List Node := n.bare?.toList.flatMap (bareParts src names)

/-- The expressions that an expression evaluates. -/
def ownExpressions (n : Node) : List Node := n.bare?.toList.flatMap (bareExpressions src names)

/-- The second expression is shown by the first, at any depth. -/
def Shown : Node → Node → Prop := Relation.ReflTransGen fun n p => p ∈ shownParts src names n

/-- The second expression is evaluated where the first is shown. -/
def Carried (n e : Node) : Prop := ∃ p, Shown src names n p ∧ e ∈ ownExpressions src names p

/-- The expression is evaluated by one of the parts. -/
def CarriedBy (parts : List Node) (e : Node) : Prop := ∃ p ∈ parts, Carried src names p e

variable {src names}

/-- A node shows itself and what its parts show. -/
theorem shown_iff {n y : Node} :
    Shown src names n y ↔ y = n ∨ ∃ p ∈ shownParts src names n, Shown src names p y := by
  constructor
  · intro h
    rcases Relation.ReflTransGen.cases_head h with rfl | ⟨p, hp, hy⟩
    · exact .inl rfl
    · exact .inr ⟨p, hp, hy⟩
  · rintro (rfl | ⟨p, hp, hy⟩)
    · exact .refl
    · exact .head hp hy

/-- A node carries its own expressions and those of its parts. -/
theorem carried_iff {n e : Node} :
    Carried src names n e ↔
      e ∈ ownExpressions src names n ∨ CarriedBy src names (shownParts src names n) e := by
  constructor
  · rintro ⟨p, hp, he⟩
    rcases shown_iff.1 hp with rfl | ⟨q, hq, hp⟩
    · exact .inl he
    · exact .inr ⟨q, hq, p, hp, he⟩
  · rintro (he | ⟨q, hq, p, hp, he⟩)
    · exact ⟨n, .refl, he⟩
    · exact ⟨p, .head hq hp, he⟩

theorem carriedBy_append {ms ns : List Node} {e : Node} :
    CarriedBy src names (ms ++ ns) e ↔ CarriedBy src names ms e ∨ CarriedBy src names ns e := by
  simp only [CarriedBy, mem_append, or_and_right, exists_or]

@[simp] theorem carriedBy_nil {e : Node} : CarriedBy src names [] e ↔ False := by
  simp [CarriedBy]

@[simp] theorem carriedBy_singleton {n e : Node} :
    CarriedBy src names [n] e ↔ Carried src names n e := by
  simp [CarriedBy]

/-- Parentheses make no difference. -/
theorem showsNothing_of_bare {n m : Node} (h : n.bare? = some m) :
    showsNothing src names n = bareShowsNothing src names m := by
  rw [showsNothing, bareShowsNothing]
  split
  · simp_all
  · rename_i m' h'
    obtain rfl : m = m' := by
      rw [h] at h'
      exact Option.some.inj h'
    congr 1
    split
    · rfl
    · cases hand : isConjunction m with
      | false => simp
      | true =>
        rw [if_pos rfl, Bool.true_and]
        split <;> rename_i hright
        all_goals simp [hright]

/-- A JSX element stands without wrappers. -/
theorem bare_of_isJsx {n : Node} (h : n.isJsx = true) : n.bare? = some n := by
  have notParens : (n.kind == "parenthesized_expression") = false := by
    simp only [isJsx, jsxKinds, contains_iff_mem, mem_cons, not_mem_nil, or_false] at h
    rcases h with h | h | h <;> simp [h]
  have notAssertion : n.isAssertion = false := by
    simp only [isJsx, jsxKinds, contains_iff_mem, mem_cons, not_mem_nil, or_false] at h
    rcases h with h | h | h <;> simp [isAssertion, h]
  rw [bare?]
  split <;> simp [notParens, notAssertion]

/-- Markup is no empty literal. -/
theorem not_isEmptyLiteral_of_isJsx {n : Node} (h : n.isJsx = true) :
    isEmptyLiteral src n = false := by
  cases hempty : isEmptyLiteral src n with
  | false => rfl
  | true => simp [not_isJsx_of_isEmptyLiteral hempty] at h

/-- The parts of markup are those of the element. -/
theorem bareParts_of_isJsx {n : Node} (h : n.isJsx = true) :
    bareParts src names n = elementParts src names n := by
  rw [bareParts, not_isEmptyLiteral_of_isJsx h, h]
  rfl

/-- A provider is a JSX element. -/
theorem isJsx_of_isProvider {n : Node} (h : isProvider src names n = true) : n.isJsx = true := by
  have holder : (tagHolder? n).isSome = true := by
    cases hholder : tagHolder? n with
    | some holder => rfl
    | none => simp [isProvider, sortOf, tagName?, hholder, nonEmpty?] at h
  unfold tagHolder? at holder
  split at holder
  · rename_i hkind
    simp [isJsx, jsxKinds, eq_of_beq hkind]
  · split at holder
    · rename_i hkind
      simp [isJsx, jsxKinds, eq_of_beq hkind]
    · cases holder

/-! ### Where it stands -/

section Standing

variable {n p e : Node}

/-- The body of a function that is passed stands in the value. -/
theorem handedBody_mem_preorder (h : handedBody? n = some p) : p ∈ n.preorder := by
  obtain ⟨parts, hparts, rfl⟩ := Option.map_eq_some_iff.1 h
  obtain ⟨v, hv, hpassed⟩ := Option.bind_eq_some_iff.1 hparts
  obtain ⟨parameters, body⟩ := parts
  exact preorder_trans (passedParts_mem_preorder hpassed) (bare_mem_preorder hv)

/-- So it does in the attribute. -/
theorem attributeBody_mem_preorder (h : attributeBody? src n = some p) : p ∈ n.preorder := by
  unfold attributeBody? at h
  split at h
  · cases h
  · obtain ⟨value, hvalue, hbody⟩ := Option.bind_eq_some_iff.1 h
    exact preorder_trans (handedBody_mem_preorder hbody) (valueExpression_mem_preorder hvalue)

/-- A value that is spread stands in the attribute. -/
theorem spreadValue_mem_preorder (h : spreadValue? n = some e) : e ∈ n.preorder := by
  unfold spreadValue? at h
  split at h
  · obtain ⟨a, ha, hvalue⟩ := Option.bind_eq_some_iff.1 h
    exact spreadAttribute_mem_preorder ha hvalue
  · cases h

/-- So does a value that is written down. -/
theorem writtenValue_mem_preorder (h : writtenValue? src n = some e) : e ∈ n.preorder := by
  unfold writtenValue? at h
  split at h
  · exact spreadValue_mem_preorder h
  split at h
  · cases h
  split at h
  · cases hvalue : valueExpression? n with
    | none =>
      rw [hvalue, Option.none_or] at h
      exact attributeValue_mem_preorder h
    | some value =>
      rw [hvalue, Option.some_or] at h
      exact valueExpression_mem_preorder (hvalue.trans h)
  · exact attributeValue_mem_preorder h

/-- So does the value of a prop. -/
theorem propValue_mem_preorder (h : propValue? src n = some e) : e ∈ n.preorder := by
  unfold propValue? at h
  split at h
  · exact spreadValue_mem_preorder h
  split at h
  · cases h
  · exact attributeValue_mem_preorder h

/-- So does the value of a ref. -/
theorem refValue_mem_preorder (h : refValue? src names n = some e) : e ∈ n.preorder := by
  unfold refValue? at h
  split at h
  · exact valueExpression_mem_preorder (Option.filter_eq_some_iff.1 h).1
  · cases h

/-- So does markup given as a string. -/
theorem htmlValue_mem_preorder (h : htmlValue? src n = some (some e)) : e ∈ n.preorder := by
  unfold htmlValue? at h
  split at h
  · obtain ⟨value, hvalue, hjoin⟩ := Option.map_eq_some_iff.1 h
    have html : innerHtml? src value = .ok (some e) := by
      cases hhtml : innerHtml? src value with
      | error f => simp [hhtml, Except.toOption] at hjoin
      | ok html => simpa [hhtml, Except.toOption] using hjoin
    exact preorder_trans (html_mem_preorder html) (valueExpression_mem_preorder hvalue)
  · cases h

/-- Such markup stands in the element. -/
theorem htmlOf_mem_preorder (h : htmlOf src (attributesOf n) = some e) : e ∈ n.preorder := by
  have last : ((attributesOf n).filterMap (htmlValue? src)).getLast? = some (some e) :=
    Option.join_eq_some_iff.1 h
  obtain ⟨attr, hattr, hvalue⟩ := mem_filterMap.1 (mem_of_getLast? last)
  exact preorder_trans (htmlValue_mem_preorder hvalue) (attribute_mem_preorder hattr)

/-- The part of a child stands in the child. -/
theorem childPart_mem_preorder (h : childPart? n = some p) : p ∈ n.preorder := by
  unfold childPart? at h
  split at h
  · split at h
    · exact innerExpression_mem_preorder (Option.filter_eq_some_iff.1 h).1
    · split at h
      · cases h
        exact mem_preorder_self _
      · cases h
  · cases h

/-- The parts of the content stand in the element. -/
theorem contentPart_mem_preorder (h : p ∈ contentParts n) : p ∈ n.preorder := by
  unfold contentParts at h
  split at h
  · cases h
  · obtain ⟨c, hc, hpart⟩ := mem_filterMap.1 h
    exact preorder_trans (childPart_mem_preorder hpart) (child_mem_preorder hc (mem_preorder_self n))

/-- An only child stands in the element. -/
theorem onlyChild_mem_preorder (h : onlyChildExpression? src n = some e) : e ∈ n.preorder := by
  obtain ⟨only, honly, -, hinner, -⟩ := onlyChildExpression_mem h
  exact preorder_trans (innerExpression_mem_preorder hinner)
    (child_mem_preorder (namedChildren_subset honly) (mem_preorder_self n))

/-- All parts of an element stand in it. -/
theorem elementPart_mem_preorder (h : p ∈ elementParts src names n) : p ∈ n.preorder := by
  unfold elementParts at h
  split at h
  · exact contentPart_mem_preorder h
  · exact contentPart_mem_preorder h
  · cases h
  · split at h
    · cases h
    · exact contentPart_mem_preorder h
  · rcases mem_append.1 h with h | h
    · obtain ⟨attr, hattr, hbody⟩ := mem_filterMap.1 h
      exact preorder_trans (attributeBody_mem_preorder hbody) (attribute_mem_preorder hattr)
    · unfold instanceParts at h
      split at h
      · rename_i body hbody
        obtain ⟨only, honly, hhanded⟩ := Option.bind_eq_some_iff.1 hbody
        rw [mem_singleton.1 h]
        exact preorder_trans (handedBody_mem_preorder hhanded) (onlyChild_mem_preorder honly)
      · exact contentPart_mem_preorder h

/-- So do all its expressions. -/
theorem elementExpression_mem_preorder (h : e ∈ elementExpressions src names n) :
    e ∈ n.preorder := by
  have ofAttribute {f : Node → Option Node} (hf : ∀ a x, f a = some x → x ∈ a.preorder)
      (he : e ∈ (attributesOf n).filterMap f) : e ∈ n.preorder := by
    obtain ⟨attr, hattr, hvalue⟩ := mem_filterMap.1 he
    exact preorder_trans (hf attr e hvalue) (attribute_mem_preorder hattr)
  unfold elementExpressions at h
  split at h
  · rcases mem_append.1 h with h | h
    · rcases mem_append.1 h with h | h
      · exact ofAttribute (fun _ _ => writtenValue_mem_preorder) h
      · exact ofAttribute (fun _ _ => refValue_mem_preorder) (mem_of_getLast? (Option.mem_toList.1 h))
    · exact htmlOf_mem_preorder (Option.mem_toList.1 h)
  · exact ofAttribute (fun _ _ => propValue_mem_preorder) h
  · cases h

/-- The list and the callback that the parts of a list are read from. -/
theorem exists_of_listParts {parts : List Node × Node} (h : listParts? src n = some parts) :
    ∃ iterable callback bindings declarations, mappedList? src n = some (iterable, callback) ∧
      callbackBindings src callback = some bindings ∧
      callbackBody callback = some (declarations, some parts.2) ∧
      parts.1 = iterable.toList
        ++ (declarations ++ (keyOf? src parts.2).toOption.join.toList) := by
  obtain ⟨mapped, hmapped, h₁⟩ := Option.bind_eq_some_iff.1 h
  obtain ⟨bindings, hbindings, h₂⟩ := Option.bind_eq_some_iff.1 h₁
  obtain ⟨body, hbody, h₃⟩ := Option.bind_eq_some_iff.1 h₂
  obtain ⟨returned, hreturned, rfl⟩ := Option.map_eq_some_iff.1 h₃
  refine ⟨mapped.1, mapped.2, bindings, body.1, hmapped, hbindings, ?_, rfl⟩
  rw [hbody, ← hreturned]

/-- The expressions and the body of a list stand in the call. -/
theorem listParts_mem_preorder {parts : List Node × Node} (h : listParts? src n = some parts) :
    (∀ x ∈ parts.1, x ∈ n.preorder) ∧ parts.2 ∈ n.preorder := by
  obtain ⟨iterable, callback, bindings, declarations, hmapped, -, hbody, hown⟩ :=
    exists_of_listParts h
  have inCallback := mapCallback_mem_preorder hmapped
  have returned : parts.2 ∈ n.preorder :=
    preorder_trans (callbackBody_mem_preorder hbody) inCallback
  refine ⟨fun x hx => ?_, returned⟩
  rw [hown] at hx
  rcases mem_append.1 hx with hx | hx
  · exact mapIterable_mem_preorder hmapped (Option.mem_toList.1 hx)
  rcases mem_append.1 hx with hx | hx
  · exact preorder_trans (declaration_mem_preorder hbody hx) inCallback
  · have key : keyOf? src parts.2 = .ok (some x) := by
      have hx := Option.mem_toList.1 hx
      cases hkey : keyOf? src parts.2 with
      | error f => simp [hkey, Except.toOption] at hx
      | ok key => simpa [hkey, Except.toOption] using hx
    exact preorder_trans (key_mem_preorder key) returned

/-- Parts stand in the node. -/
theorem mem_preorder_of_shownParts (h : p ∈ shownParts src names n) : p ∈ n.preorder := by
  obtain ⟨m, hm, hp⟩ := mem_flatMap.1 h
  refine preorder_trans ?_ (bare_mem_preorder (Option.mem_toList.1 hm))
  have ofField {name : String} (hfield : p ∈ (m.field? name).toList) : p ∈ m.preorder :=
    field_mem_preorder (Option.mem_toList.1 hfield) (mem_preorder_self m)
  unfold bareParts at hp
  split at hp
  · cases hp
  split at hp
  · exact elementPart_mem_preorder hp
  split at hp
  · exact ofField hp
  split at hp
  · split at hp
    · rcases mem_append.1 hp with hp | hp
      · exact ofField hp
      · exact ofField hp
    · cases hp
  split at hp
  · obtain ⟨parts, hparts, rfl⟩ := mem_map.1 hp
    exact (listParts_mem_preorder (Option.mem_toList.1 hparts)).2
  · cases hp

/-- The expressions of a node stand in it. -/
theorem mem_preorder_of_ownExpressions (h : e ∈ ownExpressions src names n) : e ∈ n.preorder := by
  obtain ⟨m, hm, he⟩ := mem_flatMap.1 h
  refine preorder_trans ?_ (bare_mem_preorder (Option.mem_toList.1 hm))
  have ofField {name : String} (hfield : e ∈ (m.field? name).toList) : e ∈ m.preorder :=
    field_mem_preorder (Option.mem_toList.1 hfield) (mem_preorder_self m)
  unfold bareExpressions at he
  split at he
  · cases he
  split at he
  · exact elementExpression_mem_preorder he
  split at he
  · split at he
    · cases he
    · exact ofField he
  split at he
  · split at he
    · exact ofField he
    · rw [mem_singleton.1 he]
      exact mem_preorder_self m
  split at he
  · obtain ⟨parts, hparts, hx⟩ := mem_flatMap.1 he
    exact (listParts_mem_preorder (Option.mem_toList.1 hparts)).1 e hx
  -- What is left is the use of a slot, which has its arguments, or a value.
  unfold valueExpressions at he
  split at he
  · rename_i arguments harguments
    obtain ⟨call, hcall, hslot⟩ := Option.bind_eq_some_iff.1 harguments
    obtain ⟨name, -, hresult⟩ := Option.bind_eq_some_iff.1 hslot
    split at hresult
    · cases hresult
    · cases hresult
      exact argument_mem_preorder_of_call hcall he
  · split at he
    · cases he
    · rw [mem_singleton.1 he]
      exact mem_preorder_self m

/-- What an expression shows stands in it. -/
theorem mem_preorder_of_shown (h : Shown src names n p) : p ∈ n.preorder := by
  induction h with
  | refl => exact mem_preorder_self n
  | tail _ hpart ih => exact preorder_trans (mem_preorder_of_shownParts hpart) ih

/-- Whatever a node carries stands in it. -/
theorem mem_preorder_of_carried (h : Carried src names n e) : e ∈ n.preorder := by
  obtain ⟨p, hp, he⟩ := h
  exact preorder_trans (mem_preorder_of_ownExpressions he) (mem_preorder_of_shown hp)

end Standing

end Sveltify.Render
