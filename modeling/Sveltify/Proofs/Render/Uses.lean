import Sveltify.Proofs.Render.Shown
import Sveltify.Proofs.Scope.Binders

namespace Sveltify.Render

open Text Component Analysis Scope Node List

/-!
# The expressions of built trees

The names that a component uses are looked up in its render trees and not in its source. The
expressions of a tree are those that the source carries, no more and no less.

* `Carries`: the expressions of a tree are those with some property, and the names bound around them
  are declared nearby;
* `Written`: what is sorted in of the attributes of an element;
* `uses_buildExpression`: the expressions of the tree of an expression are those it carries.
-/

variable {src : Source} {names : Names}

/-- The names that are declared in a tree or received by its functions. -/
def declaredIn (src : Source) (n : Node) : List String :=
  bindingsWithin src n ++ parameterNames src n

/-- A part of a node declares no more than the node. -/
theorem declaredIn_subset {m n : Node} (h : m ∈ n.preorder) :
    declaredIn src m ⊆ declaredIn src n := by
  intro x hx
  rcases mem_append.1 hx with hx | hx
  · obtain ⟨d, hd, hx⟩ := mem_flatMap.1 hx
    exact mem_append_left _ (mem_flatMap.2 ⟨d, preorder_trans hd h, hx⟩)
  · obtain ⟨f, hf, hx⟩ := mem_flatMap.1 hx
    obtain ⟨hmem, hfunction⟩ := mem_filter.1 hf
    exact mem_append_right _
      (mem_flatMap.2 ⟨f, mem_filter.2 ⟨preorder_trans hmem h, hfunction⟩, hx⟩)

/-- Nor do several parts. -/
theorem flatMap_declaredIn_subset {ms : List Node} {n : Node} (h : ∀ m ∈ ms, m ∈ n.preorder) :
    ms.flatMap (declaredIn src) ⊆ declaredIn src n := by
  intro x hx
  obtain ⟨m, hm, hx⟩ := mem_flatMap.1 hx
  exact declaredIn_subset (h m hm) hx

/-! ### The expressions of a tree -/

/-- The expressions of a tree are those with the property `S`. Around them only names in `declared`
are bound, besides those that are bound around the tree. -/
structure Carries (S : Node → Prop) (declared : List String)
    (used : List String → List (Node × List String)) : Prop where
  sound : ∀ bound, ∀ u ∈ used bound, S u.1 ∧ u.2 ⊆ bound ++ declared
  full : ∀ bound e, S e → ∃ u ∈ used bound, u.1 = e

namespace Carries

variable {S T : Node → Prop} {declared declared' : List String}
  {used used' : List String → List (Node × List String)}

/-- No expression is carried. -/
theorem nil : Carries (fun _ => False) declared fun _ => [] where
  sound _ _ hu := by cases hu
  full _ _ h := h.elim

/-- Expressions of the node itself are under the names bound around it. -/
theorem own (declared : List String) (es : List Node) :
    Carries (· ∈ es) declared fun bound => es.map (·, bound) where
  sound bound u hu := by
    obtain ⟨e, he, rfl⟩ := mem_map.1 hu
    exact ⟨he, subset_append_left _ _⟩
  full bound e he := ⟨(e, bound), mem_map_of_mem he, rfl⟩

/-- Two parts side by side. -/
theorem append (h : Carries S declared used) (h' : Carries T declared used') :
    Carries (fun e => S e ∨ T e) declared fun bound => used bound ++ used' bound where
  sound bound u hu := by
    rcases mem_append.1 hu with hu | hu
    · exact (h.sound bound u hu).imp_left .inl
    · exact (h'.sound bound u hu).imp_left .inr
  full bound e he := by
    rcases he with he | he
    · obtain ⟨u, hu, heq⟩ := h.full bound e he
      exact ⟨u, mem_append_left _ hu, heq⟩
    · obtain ⟨u, hu, heq⟩ := h'.full bound e he
      exact ⟨u, mem_append_right _ hu, heq⟩

/-- The same expressions, and perhaps more names. -/
theorem mono (h : Carries S declared used) (hS : ∀ e, T e ↔ S e) (hsub : declared ⊆ declared') :
    Carries T declared' used where
  sound bound u hu := by
    obtain ⟨hs, hbound⟩ := h.sound bound u hu
    refine ⟨(hS _).2 hs, fun x hx => ?_⟩
    rcases mem_append.1 (hbound hx) with hx | hx
    · exact mem_append_left _ hx
    · exact mem_append_right _ (hsub hx)
  full bound e he := h.full bound e ((hS e).1 he)

/-- The carried expressions may be listed in another form. -/
theorem congr (h : Carries S declared used) (heq : ∀ bound, used' bound = used bound) :
    Carries S declared used' := by
  rwa [funext heq]

/-- A tree in which further names are bound. -/
theorem under (h : Carries S declared used) {inner : List String} (hinner : inner ⊆ declared) :
    Carries S declared fun bound => used (bound ++ inner) where
  sound bound u hu := by
    obtain ⟨hs, hbound⟩ := h.sound _ u hu
    refine ⟨hs, fun x hx => ?_⟩
    rcases mem_append.1 (hbound hx) with hx | hx
    · rcases mem_append.1 hx with hx | hx
      · exact mem_append_left _ hx
      · exact mem_append_right _ (hinner hx)
    · exact mem_append_right _ hx
  full bound e he := h.full _ e he

end Carries

theorem passedExpressions_append (bound : List String) (ss ts : List SlotContent) :
    passedExpressions src bound (ss ++ ts) =
      passedExpressions src bound ss ++ passedExpressions src bound ts := by
  induction ss with
  | nil => rfl
  | cons s ss ih =>
    obtain ⟨name, parameters, body⟩ := s
    rw [cons_append, passedExpressions, passedExpressions, ih, append_assoc]

theorem usedExpressionsAll_append (bound : List String) (rs ts : List RenderNode) :
    usedExpressionsAll src bound (rs ++ ts) =
      usedExpressionsAll src bound rs ++ usedExpressionsAll src bound ts := by
  induction rs with
  | nil => rfl
  | cons r rs ih => rw [cons_append, usedExpressionsAll, usedExpressionsAll, ih, append_assoc]

/-- At most one tree, as a list. -/
theorem usedExpressionsAll_toList (bound : List String) (r : Option RenderNode) :
    usedExpressionsAll src bound r.toList = usedExpressionsOptional src bound r := by
  cases r <;> simp [usedExpressionsAll, usedExpressionsOptional]

/-- A missing tree carries as little as an empty one. -/
theorem usedExpressions_getD_nothing (bound : List String) (r : Option RenderNode) :
    usedExpressions src bound (r.getD .nothing) = usedExpressionsOptional src bound r := by
  cases r with
  | some r => rfl
  | none => rfl

/-- Content that nothing is handed over for has the expressions of its pieces. -/
theorem passedExpressions_content (bound : List String) (children : List RenderNode) :
    passedExpressions src bound (instanceContent none children) =
      usedExpressionsAll src bound children := by
  unfold instanceContent
  split
  · contradiction
  · rfl
  · simp [passedExpressions, usedExpressionsAll, boundNamesOf]
  · simp [passedExpressions, usedExpressions, boundNamesOf]

/-! ### Slots and conditions -/

/-- The use of a slot has the arguments as its expressions. -/
theorem yields_slotUse_arguments (n : Node) :
    Yields (fun r => r.isSome = (slotArguments? src names n).isSome ∧ ∀ bound,
        usedExpressionsOptional src bound r =
          ((slotArguments? src names n).getD []).map (·, bound))
      (slotUse src names n) := by
  unfold slotUse slotArguments?
  cases calleeAndArguments n with
  | none => exact Yields.pure ⟨rfl, fun _ => rfl⟩
  | some call =>
    obtain ⟨callee, arguments⟩ := call
    simp only [Option.bind_some]
    cases namedSlot? src names callee with
    | none => exact Yields.pure ⟨rfl, fun _ => rfl⟩
    | some name =>
      simp only [Option.bind_some]
      split
      · exact Yields.pure ⟨rfl, fun _ => rfl⟩
      have arguments_used (text : String) (isReceived : Bool) (bound : List String) :
          usedExpressionsOptional src bound (some (.slot name text arguments isReceived)) =
            ((some arguments).getD []).map (·, bound) := by
        simp [usedExpressionsOptional, usedExpressions]
      split
      · exact Yields.pure ⟨rfl, arguments_used name false⟩
      · exact Yields.bind fun _ => Yields.pure ⟨rfl, arguments_used (src.text callee) true⟩

/-- A value yields markup if it holds some, or if it is a slot. -/
theorem yields_yieldsMarkup (n : Node) :
    Yields (fun isMarkup => ∃ m, n.bare? = some m ∧
        isMarkup = (m.hasMarkup || (slotArguments? src names m).isSome))
      (yieldsMarkup src names n) := by
  intro p isMarkup q hrun
  obtain ⟨m, p₁, hneed, hthen⟩ := bind_ok_iff.1 hrun
  refine ⟨m, (need_ok_iff.1 hneed).1, ?_⟩
  split at hthen
  · rename_i hmarkup
    cases hthen
    rw [hmarkup, Bool.true_or]
  · rename_i hmarkup
    obtain ⟨slot, p₂, hslot, hreturn⟩ := bind_ok_iff.1 hthen
    cases hreturn
    rw [(yields_slotUse_arguments m hslot).1, Bool.eq_false_iff.2 hmarkup, Bool.false_or]

/-- The search for a branch with markup. -/
theorem yields_anyRendered (branches : List Node) :
    Yields (· = branches.any (isRenderedBranch src names)) (anyRendered src names branches) := by
  induction branches with
  | nil => exact .pure rfl
  | cons b bs ih =>
    refine (yields_yieldsMarkup b).andThen fun isMarkup hmarkup => ?_
    obtain ⟨m, hbare, hmarkup⟩ := hmarkup
    have branch : isRenderedBranch src names b = (isMarkup || isEmptyLiteral src m) := by
      simp [isRenderedBranch, hbare, hmarkup]
    rw [any_cons, branch]
    cases isMarkup with
    | true => exact .pure rfl
    | false =>
      -- The branch is freed of parentheses once more, with the same result.
      intro p rendered q hrun
      obtain ⟨isEmpty, p₁, hlift, hthen⟩ := bind_ok_iff.1 hrun
      obtain ⟨m', hneed, hempty⟩ := except_bind_ok_iff.1 (lift_ok_iff.1 hlift).1
      obtain rfl : m = m' := Option.some.inj (hbare.symm.trans (except_need_ok_iff.1 hneed))
      cases hempty
      rw [Bool.false_or]
      cases hliteral : isEmptyLiteral src m with
      | true =>
        rw [hliteral] at hthen
        cases hthen
        rfl
      | false =>
        rw [hliteral] at hthen
        exact ih hthen

/-! ### Attributes of elements -/

/-- What is sorted in of attributes: values and handlers, an expression for the ref, and content
that is given as text. -/
structure Written (src : Source) (names : Names) (attributes : List Node) (parts : TagParts) :
    Prop where
  values : ∀ e, e ∈ attributeValues parts.attributes ++ parts.events.map (·.handler) ↔
    e ∈ attributes.filterMap (writtenValue? src)
  ref : parts.refExpression = (attributes.filterMap (refValue? src names)).getLast?
  html : parts.html = htmlOf src attributes

/-- One attribute more. -/
theorem Written.snoc {attributes : List Node} {parts parts' : TagParts}
    (h : Written src names attributes parts) {attr : Node}
    (hvalues : ∀ e, e ∈ attributeValues parts'.attributes ++ parts'.events.map (·.handler) ↔
      e ∈ attributeValues parts.attributes ++ parts.events.map (·.handler) ∨
        writtenValue? src attr = some e)
    (href : parts'.refExpression = (refValue? src names attr).or parts.refExpression)
    (hhtml : parts'.html = (htmlValue? src attr).getD parts.html) :
    Written src names (attributes ++ [attr]) parts' where
  values e := by
    rw [hvalues, h.values, filterMap_append, mem_append]
    simp
  ref := by
    rw [href, h.ref, filterMap_append, getLast?_append]
    cases hr : refValue? src names attr <;> simp [hr]
  html := by
    rw [hhtml, h.html, htmlOf, htmlOf, filterMap_append, getLast?_append]
    cases hr : htmlValue? src attr <;> simp [hr]

/-- A value is an old one, or one of an added attribute. -/
theorem mem_values_of_attributes {parts : TagParts} {added : List Attribute} {e : Node} :
    e ∈ attributeValues (parts.attributes ++ added) ++ parts.events.map (·.handler) ↔
      e ∈ attributeValues parts.attributes ++ parts.events.map (·.handler) ∨
        e ∈ attributeValues added := by
  simp only [attributeValues, filterMap_append, mem_append]
  exact or_right_comm

/-- An attribute with a name is found by it. -/
theorem plainName_of_named {attr : Node} {name : String} (h : IsNamed src attr name) :
    plainName? src attr = some name := by
  simp [plainName?, h.1, h.2]

/-- Adding an attribute writes down its value. -/
theorem written_addAttribute {attributes : List Node} {parts : TagParts}
    (h : Written src names attributes parts) (attr : Node) :
    Yields (Written src names (attributes ++ [attr])) (addAttribute src names parts attr) := by
  refine (yields_addAttribute src names parts attr).mono fun parts' added => ?_
  cases added with
  | spread hkind =>
    have name : plainName? src attr = none := by simp [plainName?, hkind]
    refine h.snoc (fun e => mem_values_of_attributes.trans (or_congr_right ?_)) ?_ ?_
    · simp [attributeValues, writtenValue?, spreadValue?, hkind, Option.bind_eq_some_iff]
    · simp [refValue?, name]
    · simp [htmlValue?, name]
  | key named =>
    have plain := plainName_of_named named
    refine h.snoc (fun e => ?_) ?_ ?_
    · simp [writtenValue?, named.1, plain]
    · simp [refValue?, plain]
    · simp [htmlValue?, plain]
  | @ref value target named hvalue htarget hknown =>
    have plain := plainName_of_named named
    have name : isRefName src names target = true := hknown
    refine h.snoc (fun e => ?_) ?_ ?_
    · simp [writtenValue?, isTakenOut, named.1, plain, hvalue]
    · simp [refValue?, plain, hvalue, htarget, name, Option.filter_some]
    · simp [htmlValue?, plain]
  | @refExpression value target named hvalue htarget hunknown =>
    have plain := plainName_of_named named
    have name : isRefName src names target = false := hunknown
    refine h.snoc (fun e => ?_) ?_ ?_
    · simp [writtenValue?, isTakenOut, named.1, plain, hvalue]
    · simp [refValue?, plain, hvalue, htarget, name, Option.filter_some]
    · simp [htmlValue?, plain]
  | html named hvalue hhtml =>
    have plain := plainName_of_named named
    refine h.snoc (fun e => ?_) ?_ ?_
    · simp [writtenValue?, isTakenOut, named.1, plain, hvalue]
    · simp [refValue?, plain]
    · simp [htmlValue?, plain, hvalue, hhtml, Except.toOption]
  | @event name value named hvalue hkey href hhtml hevent =>
    have plain := plainName_of_named named
    refine h.snoc (fun e => ?_) ?_ ?_
    · have written : writtenValue? src attr = some value := by
        simp [writtenValue?, isTakenOut, named.1, plain, hvalue, hkey, href, hhtml, hevent]
      simp [written, or_assoc, eq_comm]
    · simp [refValue?, plain, href]
    · simp [htmlValue?, plain, hhtml]
  | plain named hkey hplain =>
    have plain := plainName_of_named named
    refine h.snoc (fun e => mem_values_of_attributes.trans (or_congr_right ?_)) ?_ ?_
    -- Only an attribute whose value is an expression can be a ref, text content or an event.
    all_goals cases hvalue : valueExpression? attr with
    | none => simp [writtenValue?, isTakenOut, refValue?, htmlValue?, attributeValues, named.1, plain,
        hkey, hvalue]
    | some value =>
      obtain ⟨href, hhtml, hevent⟩ := hplain value hvalue
      simp [writtenValue?, isTakenOut, refValue?, htmlValue?, attributeValues, named.1, plain, hkey,
        href, hhtml, hevent]

/-- All attributes are written down in turn. -/
theorem written_addAttributes (attributes : List Node) :
    Yields (Written src names attributes) (attributes.foldlM (addAttribute src names) {}) := by
  have start : Written src names [] {} := ⟨by simp [attributeValues], rfl, rfl⟩
  exact Yields.foldlM (I := Written src names) (fun done parts attr h => written_addAttribute h attr)
    attributes start

/-! ### Expressions -/

/-- What is shown of expressions. -/
abbrev UsesExpression (src : Source) (names : Names) (nested : Bool) (n : Node) : Prop :=
  Yields (fun r => r.isNone = showsNothing src names n ∧
      Carries (Carried src names n) (declaredIn src n) fun bound =>
        usedExpressionsOptional src bound r)
    (buildExpression src names nested n)

/-- What an expression without wrappers carries, one step taken apart. -/
def CarriedBare (src : Source) (names : Names) (n e : Node) : Prop :=
  e ∈ bareExpressions src names n ∨ CarriedBy src names (bareParts src names n) e

/-- What is shown of expressions without wrappers. -/
abbrev UsesBare (src : Source) (names : Names) (nested : Bool) (n : Node) : Prop :=
  Yields (fun r => r.isNone = bareShowsNothing src names n ∧
      Carries (CarriedBare src names n) (declaredIn src n) fun bound =>
        usedExpressionsOptional src bound r)
    (buildBare src names nested n)

/-- Parentheses carry what stands in them. -/
theorem carried_of_bare {n m e : Node} (h : n.bare? = some m) :
    Carried src names n e ↔ CarriedBare src names m e := by
  rw [carried_iff, CarriedBare, ownExpressions, shownParts, h]
  simp

/-- So it is enough to look at expressions without parentheses. -/
theorem uses_of_bare {nested : Bool} {n m : Node} (h : n.bare? = some m)
    (hm : UsesBare src names nested m) : UsesExpression src names nested n := by
  unfold UsesExpression
  rw [buildExpression_of_bare h, showsNothing_of_bare h]
  intro p r q hrun
  obtain ⟨hnone, carries⟩ := hm hrun
  exact ⟨hnone, carries.mono (fun e => carried_of_bare h) (declaredIn_subset (bare_mem_preorder h))⟩

/-- What is shown of optional parts. -/
theorem uses_buildOptional {nested : Bool} {part : Option Node} {n : Node}
    (h : ∀ c, part = some c → UsesExpression src names nested c)
    (hpart : ∀ c, part = some c → c ∈ n.preorder) :
    Yields (fun r => r.isNone = part.all (showsNothing src names) ∧
        Carries (CarriedBy src names part.toList) (declaredIn src n) fun bound =>
          usedExpressionsOptional src bound r)
      (buildOptional src names nested part) := by
  cases part with
  | none => exact .pure ⟨rfl, Carries.nil.mono (by simp) (Subset.refl _)⟩
  | some c =>
    intro p r q hrun
    obtain ⟨hnone, carries⟩ := h c rfl hrun
    exact ⟨by simpa using hnone,
      carries.mono (fun e => by simp) (declaredIn_subset (hpart c rfl))⟩

section Bare

variable {nested : Bool} {n : Node} (hempty : isEmptyLiteral src n = false)

/-- An empty literal carries nothing. -/
theorem uses_empty (h : isEmptyLiteral src n = true) : UsesBare src names nested n := by
  unfold UsesBare
  rw [buildBare_empty src names h]
  refine .pure ⟨by simp [bareShowsNothing, h], ?_⟩
  exact Carries.nil.mono (fun e => by simp [CarriedBare, bareExpressions, bareParts, h])
    (Subset.refl _)

/-- A field is a node of its parent. -/
theorem field_standing {c : Node} {name : String} (h : n.field? name = some c) : c ∈ n.preorder :=
  field_mem_preorder h (mem_preorder_self n)

include hempty

/-- A conjunction carries its condition and what is behind it. -/
theorem uses_conjunction (hand : isConjunction n = true)
    (right : ∀ c, n.field? "right" = some c → UsesExpression src names true c) :
    UsesBare src names nested n := by
  have hkind : n.kind = "binary_expression" := by simp_all [isConjunction]
  have notJsx : n.isJsx = false := by simp [isJsx, jsxKinds, hkind]
  have nothing : bareShowsNothing src names n =
      (n.field? "right").all (showsNothing src names) := by
    simp [bareShowsNothing, hempty, notJsx, hand]
  have carried (e : Node) : CarriedBare src names n e ↔
      e ∈ (if bareShowsNothing src names n then [] else (n.field? "left").toList) ∨
        CarriedBy src names (n.field? "right").toList e := by
    simp [CarriedBare, bareExpressions, bareParts, hempty, notJsx, hand]
  unfold UsesBare
  rw [buildBare_conjunction hempty hand]
  refine (uses_buildOptional right fun c hc => field_standing hc).andThen fun r hr => .pure ?_
  obtain ⟨hnone, carries⟩ := hr
  rw [← nothing] at hnone
  refine ⟨by simpa using hnone, ?_⟩
  cases r with
  | none =>
    -- What is never shown needs no condition.
    have hnothing : bareShowsNothing src names n = true := hnone.symm
    refine carries.mono (fun e => ?_) (Subset.refl _)
    rw [carried, hnothing]
    simp
  | some r =>
    have hsomething : bareShowsNothing src names n = false := hnone.symm
    have both := (Carries.own (declaredIn src n) (n.field? "left").toList).append carries
    refine (both.mono (fun e => ?_) (Subset.refl _)).congr fun bound => ?_
    · rw [carried, hsomething]
      simp
    · simp [usedExpressionsOptional, usedExpressions]

/-- A ternary expression carries its condition and both branches. -/
theorem uses_ternary (hkind : n.kind = "ternary_expression")
    (consequence : ∀ c, n.field? "consequence" = some c → UsesExpression src names true c)
    (alternative : ∀ c, n.field? "alternative" = some c → UsesExpression src names true c) :
    UsesBare src names nested n := by
  have notJsx : n.isJsx = false := by simp [isJsx, jsxKinds, hkind]
  have notAnd : isConjunction n = false := by simp [isConjunction, hkind]
  have something : bareShowsNothing src names n = false := by
    simp [bareShowsNothing, hempty, notJsx, notAnd]
  unfold UsesBare
  rw [buildBare_ternary hempty hkind, something]
  refine (yields_anyRendered _).andThen fun rendered hrendered => ?_
  have condition : isRenderedCondition src names n = rendered := hrendered.symm
  cases rendered with
  | false =>
    -- Without markup in its branches the whole condition is one value.
    refine .pure ⟨rfl, ((Carries.own _ [n]).mono (fun e => ?_) (Subset.refl _)).congr fun bound => ?_⟩
    · simp [CarriedBare, bareExpressions, bareParts, hempty, notJsx, notAnd, hkind, condition]
    · simp [usedExpressionsOptional, usedExpressions]
  | true =>
    refine (uses_buildOptional consequence fun c hc => field_standing hc).andThen fun r hr => ?_
    refine (uses_buildOptional alternative fun c hc => field_standing hc).andThen fun r' hr' => ?_
    have all := (Carries.own (declaredIn src n) (n.field? "condition").toList).append
      (hr.2.append hr'.2)
    refine .pure ⟨rfl, (all.mono (fun e => ?_) (Subset.refl _)).congr fun bound => ?_⟩
    · simp [CarriedBare, bareExpressions, bareParts, hempty, notJsx, notAnd, hkind, condition,
        carriedBy_append]
    · simp [usedExpressionsOptional, usedExpressions, usedExpressions_getD_nothing]

omit hempty in
/-- A parameter binds the names of its pattern. -/
theorem boundNames_patternOf (p : Node) : boundNames src (patternOf p) = boundNames src p := by
  unfold patternOf
  split
  · rename_i htyped
    have role : patternRole? p.kind = some "pattern" := by
      simp only [isTypedParameter, Bool.or_eq_true, beq_iff_eq] at htyped
      rcases htyped with hkind | hkind <;> simp [hkind, patternRole?]
    cases hpattern : p.field? "pattern" with
    | none => rfl
    | some inner =>
      rw [boundNames_role role, hpattern]
      rfl
  · rfl

/-- What is shown of the expression that the callback of a list returns. -/
abbrev UsesItems (src : Source) (names : Names) (n : Node) : Prop :=
  ∀ iterable callback declarations returned, mappedList? src n = some (iterable, callback) →
    callbackBody callback = some (declarations, some returned) →
    UsesExpression src names true returned

omit hempty in
/-- The names that a list binds are received or declared in its callback. -/
theorem listNames_subset {head : ListHead} {callback : Node} {returned : Option Node}
    (hfunction : callback.isFunction = true) (hcallback : callback ∈ n.preorder)
    (hbindings : callbackBindings src callback = some (head.item, head.index))
    (hbody : callbackBody callback = some (head.declarations, returned)) :
    listNames src head ⊆ declaredIn src n := by
  -- The callback binds its parameters, so they are declared in `n`.
  have parameter {p : Node} (hp : p ∈ parametersOf callback) :
      boundNames src (patternOf p) ⊆ declaredIn src n := by
    intro x hx
    rw [boundNames_patternOf] at hx
    refine mem_append_left _ (mem_flatMap.2 ⟨callback, hcallback, ?_⟩)
    rw [ownBindings, if_pos hfunction]
    exact mem_append_left _ (mem_flatMap.2 ⟨p, hp, hx⟩)
  have bindings : boundNamesOf src head.item ++ (nonEmpty? head.index).toList ⊆ declaredIn src n := by
    unfold callbackBindings at hbindings
    split at hbindings
    all_goals rename_i hparameters
    · simp only [Option.some.injEq, Prod.mk.injEq] at hbindings
      rw [← hbindings.1, ← hbindings.2]
      simp [boundNamesOf, nonEmpty?]
    · simp only [Option.some.injEq, Prod.mk.injEq] at hbindings
      rw [← hbindings.1, ← hbindings.2]
      simpa [boundNamesOf, nonEmpty?] using parameter (by simp [hparameters])
    · dsimp only at hbindings
      split at hbindings
      · rename_i hidentifier
        simp only [Option.some.injEq, Prod.mk.injEq] at hbindings
        rw [← hbindings.1, ← hbindings.2]
        have item := parameter (by rw [hparameters]; exact mem_cons_self)
        have index := parameter (by rw [hparameters]; exact mem_cons_of_mem _ mem_cons_self)
        rw [boundNames_identifier hidentifier] at index
        exact append_subset.2 ⟨item, Subset.trans (nonEmpty_toList_subset _) index⟩
      · cases hbindings
  refine append_subset.2 ⟨bindings, fun x hx => ?_⟩
  obtain ⟨d, hd, hx⟩ := mem_flatMap.1 hx
  have inside := preorder_trans (declaration_mem_preorder hbody hd) hcallback
  exact declaredIn_subset inside (mem_append_left _ hx)

/-- What is shown of a list. -/
abbrev UsesList (src : Source) (names : Names) (n : Node) (x : Build (Option RenderNode)) : Prop :=
  Yields (fun r => r.isNone = false ∧
    Carries (fun e => e ∈ (listParts? src n).toList.flatMap (·.1) ∨
      CarriedBy src names ((listParts? src n).toList.map (·.2)) e) (declaredIn src n)
      fun bound => usedExpressionsOptional src bound r) x

omit hempty in
/-- A list whose callback cannot be read is not converted, and carries nothing. -/
theorem uses_unreadList (hparts : listParts? src n = none) (reason : String) :
    UsesList src names n (pure (some (.unsupported n reason none))) :=
  .pure ⟨rfl, Carries.nil.mono (by simp [hparts]) (Subset.refl _)⟩

omit hempty in
/-- The items of a list carry their expressions under the names of the callback. -/
theorem uses_items {iterable item : Option Node} {callback returned : Node}
    {index : Option String} {declarations : List Node} (items : UsesItems src names n)
    (hmapped : mappedList? src n = some (iterable, callback))
    (hfunction : callback.isFunction = true)
    (hbindings : callbackBindings src callback = some (item, index))
    (hbody : callbackBody callback = some (declarations, some returned)) :
    UsesList src names n
      (buildItems src names n iterable (some (item, index)) (some (declarations, some returned))) := by
  intro p r q hrun
  obtain ⟨key, p₁, hlift, hrest⟩ := bind_ok_iff.1 hrun
  obtain ⟨body, p₂, hbuild, hreturn⟩ := bind_ok_iff.1 hrest
  cases hreturn
  have hkey := (lift_ok_iff.1 hlift).1
  have hcallback := mapCallback_mem_preorder hmapped
  have inside := preorder_trans (callbackBody_mem_preorder hbody) hcallback
  have parts : listParts? src n =
      some (iterable.toList ++ (declarations ++ key.toList), returned) := by
    simp [listParts?, hmapped, hbindings, hbody, hkey, Except.toOption]
  let head : ListHead := { node := n, iterable, item, index, key, declarations }
  have bound : listNames src head ⊆ declaredIn src n :=
    listNames_subset hfunction hcallback hbindings hbody
  have shown := (items _ _ _ _ hmapped hbody hbuild).2.mono (fun _ => Iff.rfl)
    (declaredIn_subset inside)
  -- The list is read outside the block, the rest under the names that the callback binds.
  have all := (Carries.own (declaredIn src n) iterable.toList).append
    (((Carries.own _ (declarations ++ key.toList)).append shown).under bound)
  refine ⟨rfl, (all.mono (fun e => ?_) (Subset.refl _)).congr fun names => ?_⟩
  · simp [parts, or_assoc]
  · simp [usedExpressionsOptional, usedExpressions, usedExpressions_getD_nothing, head]

omit hempty in
/-- A list carries what it goes through, its key and its items. -/
theorem uses_buildMapped (items : UsesItems src names n)
    (hlist : isItemList src names n = .ok true) :
    UsesList src names n (buildMapped src names n (mappedList? src n)) := by
  unfold isItemList at hlist
  cases hmapped : mappedList? src n with
  | none =>
    rw [hmapped] at hlist
    cases hlist
  | some mapped =>
    obtain ⟨iterable, callback⟩ := mapped
    rw [hmapped] at hlist
    have hfunction : callback.isFunction = true := by
      dsimp only at hlist
      split at hlist
      · assumption
      · cases hlist
    unfold buildMapped
    dsimp only
    -- A list is understood as a whole or not at all.
    cases hbindings : callbackBindings src callback with
    | none => exact uses_unreadList (by simp [listParts?, hmapped, hbindings]) _
    | some bindings =>
      cases hbody : callbackBody callback with
      | none => exact uses_unreadList (by simp [listParts?, hmapped, hbindings, hbody]) _
      | some body =>
        obtain ⟨declarations, returned⟩ := body
        cases returned with
        | none => exact uses_unreadList (by simp [listParts?, hmapped, hbindings, hbody]) _
        | some returned => exact uses_items items hmapped hfunction hbindings hbody

omit hempty in
/-- An inserted value carries itself, or the arguments of a slot. -/
theorem uses_buildValue (n : Node) :
    Yields (fun r => r.isNone = false ∧
        Carries (· ∈ valueExpressions src names n) (declaredIn src n) fun bound =>
          usedExpressionsOptional src bound r)
      (buildValue src names n) := by
  refine (yields_slotUse_arguments n).andThen fun slot hslot => ?_
  obtain ⟨hsome, hused⟩ := hslot
  unfold valueExpressions
  cases slot with
  | some slot =>
    refine .pure ⟨rfl, ?_⟩
    cases harguments : slotArguments? src names n with
    | none => simp [harguments] at hsome
    | some arguments =>
      refine (Carries.own _ arguments).congr fun bound => ?_
      rw [hused, harguments]
      rfl
  | none =>
    have none : slotArguments? src names n = none := by simpa using hsome
    rw [none]
    dsimp only
    split
    · exact .pure ⟨rfl, Carries.nil.mono (by simp) (Subset.refl _)⟩
    · exact .pure ⟨rfl, (Carries.own _ [n]).congr fun bound => rfl⟩

/-- Any other expression is a list or a value. -/
theorem uses_other (hjsx : n.isJsx = false) (hand : isConjunction n = false)
    (hternary : n.kind ≠ "ternary_expression") (items : UsesItems src names n) :
    UsesBare src names nested n := by
  have something : bareShowsNothing src names n = false := by
    simp [bareShowsNothing, hempty, hjsx, hand]
  unfold UsesBare
  rw [buildBare_other src names hempty hjsx hand hternary, something]
  intro p r q hrun
  obtain ⟨isList, p₁, hlift, hthen⟩ := bind_ok_iff.1 hrun
  have hlist := (lift_ok_iff.1 hlift).1
  have rendered : isRenderedList src names n = isList := by
    simp [isRenderedList, hlist, Except.toOption]
  cases isList with
  | true =>
    obtain ⟨hnone, carries⟩ := uses_buildMapped items hlist hthen
    refine ⟨hnone, carries.mono (fun e => ?_) (Subset.refl _)⟩
    simp [CarriedBare, bareExpressions, bareParts, hempty, hjsx, hand, hternary, rendered]
  | false =>
    obtain ⟨hnone, carries⟩ := uses_buildValue n hthen
    refine ⟨hnone, carries.mono (fun e => ?_) (Subset.refl _)⟩
    simp [CarriedBare, bareExpressions, bareParts, hempty, hjsx, hand, hternary, rendered]

end Bare

/-! ### JSX elements -/

/-- What a JSX element carries, one step taken apart. -/
def CarriedElement (src : Source) (names : Names) (n e : Node) : Prop :=
  e ∈ elementExpressions src names n ∨ CarriedBy src names (elementParts src names n) e

/-- What is shown of JSX elements. -/
abbrev UsesElement (src : Source) (names : Names) (nested : Bool) (n : Node) : Prop :=
  Yields (fun r => r.isNone = isFixedStyle src names n ∧
      Carries (CarriedElement src names n) (declaredIn src n) fun bound =>
        usedExpressionsOptional src bound r)
    (buildMarkup src names nested n)

/-- What is shown of the nodes between tags. -/
abbrev UsesContent (src : Source) (names : Names) (nested : Bool) (cs : List Node) : Prop :=
  Yields (fun rs => Carries (CarriedBy src names (cs.filterMap childPart?))
      (cs.flatMap (declaredIn src)) fun bound => usedExpressionsAll src bound rs)
    (buildChildren src names nested cs)

/-- What is shown of the attributes of a component instance. -/
abbrev UsesAttributes (src : Source) (names : Names) (attributes : List Node) : Prop :=
  Yields (fun made => attributeValues made.1 = attributes.filterMap (propValue? src) ∧
      Carries (CarriedBy src names (attributes.filterMap (attributeBody? src)))
        (attributes.flatMap (declaredIn src)) fun bound => passedExpressions src bound made.2)
    (buildInstanceAttributes src names attributes)

/-- What is shown of a value that is handed over. -/
abbrev UsesPassed (src : Source) (names : Names) (value : Node) : Prop :=
  ∀ name, Yields (fun slot => slot.isSome = (handedBody? value).isSome ∧
      Carries (CarriedBy src names (handedBody? value).toList) (declaredIn src value)
        fun bound => passedExpressions src bound slot.toList)
    (passedMarkup src names name value)

/-- An element carries the same as the expression that it is. -/
theorem carriedElement_iff {n e : Node} (h : n.isJsx = true) :
    CarriedElement src names n e ↔ Carried src names n e := by
  rw [carried_of_bare (bare_of_isJsx h), CarriedElement, CarriedBare, bareExpressions,
    bareParts_of_isJsx h]
  simp [not_isEmptyLiteral_of_isJsx h, h]

/-- An element that stands as an expression. -/
theorem uses_markup {nested : Bool} {n : Node} (hempty : isEmptyLiteral src n = false)
    (hjsx : n.isJsx = true) (h : UsesElement src names nested n) :
    UsesBare src names nested n := by
  unfold UsesBare
  rw [buildBare_markup src names hempty hjsx]
  intro p r q hrun
  obtain ⟨hnone, carries⟩ := h hrun
  refine ⟨by rw [hnone, bareShowsNothing, hempty, hjsx]; rfl, carries.mono (fun e => ?_) (Subset.refl _)⟩
  rw [carriedElement_iff hjsx, carried_of_bare (bare_of_isJsx hjsx)]

section Tag

variable {nested : Bool} {n : Node} {children : List RenderNode}

/-- What is known of the content of an element when the element is built. -/
abbrev ContentUses (src : Source) (names : Names) (n : Node) (children : List RenderNode) : Prop :=
  Carries (CarriedBy src names (contentParts n)) (declaredIn src n) fun bound =>
    usedExpressionsAll src bound children

/-- What is to be shown of an element. -/
abbrev TagUses (src : Source) (names : Names) (n : Node) (r : Option RenderNode) : Prop :=
  r.isNone = isFixedStyle src names n ∧
    Carries (CarriedElement src names n) (declaredIn src n) fun bound =>
      usedExpressionsOptional src bound r

/-- The content of an element carries what its children carry. -/
theorem uses_buildContent (h : UsesContent src names nested n.children) :
    Yields (ContentUses src names n) (buildContent src names nested n) := by
  unfold buildContent
  split
  · rename_i hself
    refine .pure (Carries.nil.mono (fun e => ?_) (Subset.refl _))
    simp [contentParts, hself]
  · rename_i hself
    intro p rs q hrun
    refine (h hrun).mono (fun e => ?_) (flatMap_declaredIn_subset fun c hc =>
      child_mem_preorder hc (mem_preorder_self n))
    simp [contentParts, hself]

/-- A fragment, and so a provider, has the expressions of its content. -/
theorem tagUses_fragment (h : ContentUses src names n children)
    (hsort : sortOf src names n = .fragment ∨ ∃ key, sortOf src names n = .provider key) :
    TagUses src names n (some (.fragment children)) := by
  have sorts : isFixedStyle src names n = false ∧ elementExpressions src names n = [] ∧
      elementParts src names n = contentParts n := by
    rcases hsort with hsort | ⟨key, hsort⟩ <;>
      simp [isFixedStyle, elementExpressions, elementParts, hsort]
  refine ⟨sorts.1.symm, (h.mono (fun e => ?_) (Subset.refl _)).congr fun bound => rfl⟩
  simp [CarriedElement, sorts.2.1, sorts.2.2]

/-- A style carries nothing. -/
theorem uses_buildStyle (hsort : sortOf src names n = .style) :
    Yields (TagUses src names n) (buildStyle src n) := by
  have carried (e : Node) : CarriedElement src names n e ↔ False := by
    simp [CarriedElement, elementExpressions, elementParts, hsort]
  intro p r q hrun
  obtain ⟨isGlobal, p₁, -, hrun₁⟩ := bind_ok_iff.1 hrun
  obtain ⟨parts, p₂, hlift, hrun₂⟩ := bind_ok_iff.1 hrun₁
  have hparts := (lift_ok_iff.1 hlift).1
  have fixed : isFixedStyle src names n = parts.isSome := by
    simp [isFixedStyle, hsort, hparts, Except.toOption]
  rw [TagUses, fixed]
  cases parts with
  | none =>
    cases hrun₂
    exact ⟨rfl, Carries.nil.mono carried (Subset.refl _)⟩
  | some parts =>
    have none : r = none := by
      dsimp only at hrun₂
      split at hrun₂
      · cases hrun₂
        rfl
      · cases hrun₂
        rfl
    subst none
    exact ⟨rfl, Carries.nil.mono carried (Subset.refl _)⟩

/-- An element carries its attributes and its content. -/
theorem uses_buildElement {tag : String} (h : ContentUses src names n children)
    (hsort : sortOf src names n = .element tag) :
    Yields (fun r => TagUses src names n (some r)) (buildElement src names n tag children) := by
  refine .bind fun id => (written_addAttributes _).andThen fun parts written => ?_
  -- The content is shown unless an attribute gives it as text.
  have content : Carries (fun e => e ∈ (htmlOf src (attributesOf n)).toList ∨
      CarriedBy src names
        (if (htmlOf src (attributesOf n)).isSome then [] else contentParts n) e)
      (declaredIn src n) fun bound =>
        usedExpressionsAll src bound (shownContent parts.html children) := by
    rw [written.html]
    cases htmlOf src (attributesOf n) with
    | none => exact h.mono (by simp) (Subset.refl _)
    | some html =>
      refine ((Carries.own _ [html]).mono (by simp) (Subset.refl _)).congr fun bound => ?_
      simp [shownContent, usedExpressionsAll, usedExpressions]
  have all := (Carries.own (declaredIn src n) (attributeValues parts.attributes
    ++ parts.events.map (·.handler) ++ parts.refExpression.toList)).append content
  have carried (e : Node) : CarriedElement src names n e ↔
      e ∈ attributeValues parts.attributes ++ parts.events.map (·.handler)
          ++ parts.refExpression.toList ∨
        e ∈ (htmlOf src (attributesOf n)).toList ∨
        CarriedBy src names
          (if (htmlOf src (attributesOf n)).isSome then [] else contentParts n) e := by
    rw [mem_append, written.values, written.ref, CarriedElement, elementExpressions, elementParts,
      hsort]
    simp only [mem_append, or_assoc]
  have done (ref : Option String) : TagUses src names n (some (.element
      { tag, node := n, id, attributes := parts.attributes, events := parts.events, ref
        refExpression := parts.refExpression, html := parts.html }
      (shownContent parts.html children))) :=
    ⟨by simp [isFixedStyle, hsort], (all.mono carried (Subset.refl _)).congr fun bound => rfl⟩
  dsimp only
  cases parts.ref with
  | none => exact Yields.pure (Q := fun r => TagUses src names n (some r)) (done none)
  | some ref =>
    exact Yields.bind (Q := fun r => TagUses src names n (some r)) fun _ => .pure (done (some ref))

/-- A slot carries what its body carries. -/
theorem uses_passedOptional {value : Option Node}
    (h : ∀ e, value = some e → UsesPassed src names e)
    (hvalue : ∀ e, value = some e → e ∈ n.preorder) (name : String) :
    Yields (fun slot => slot.isSome = (value.bind handedBody?).isSome ∧
        Carries (CarriedBy src names (value.bind handedBody?).toList) (declaredIn src n)
          fun bound => passedExpressions src bound slot.toList)
      (passedOptional src names name value) := by
  cases value with
  | none => exact .pure ⟨rfl, Carries.nil.mono (by simp) (Subset.refl _)⟩
  | some e =>
    intro p slot q hrun
    obtain ⟨hsome, carries⟩ := h e rfl name hrun
    exact ⟨hsome, carries.mono (fun _ => Iff.rfl) (declaredIn_subset (hvalue e rfl))⟩

/-- A component carries its props, its slots and its content. -/
theorem uses_buildInstance {name : String} (h : ContentUses src names n children)
    (hsort : sortOf src names n = .component name)
    (attributes : UsesAttributes src names (attributesOf n))
    (passed : ∀ e, onlyChildExpression? src n = some e → UsesPassed src names e) :
    Yields (fun r => TagUses src names n (some r)) (buildInstance src names n name children) := by
  refine .bind fun id => attributes.andThen fun made hmade => ?_
  refine (uses_passedOptional passed (fun e he => onlyChild_mem_preorder he) "children").andThen
    fun slot hslot => .pure ?_
  obtain ⟨hprops, carriesSlots⟩ := hmade
  obtain ⟨hsome, carriesSlot⟩ := hslot
  -- Markup that is handed over takes the place of the content.
  have content : Carries (CarriedBy src names (instanceParts src n)) (declaredIn src n)
      fun bound => passedExpressions src bound (instanceContent slot children) := by
    unfold instanceParts
    cases hbody : (onlyChildExpression? src n).bind handedBody? with
    | none =>
      obtain rfl : slot = none := by simpa [hbody] using hsome
      exact h.congr fun bound => passedExpressions_content bound children
    | some body =>
      obtain ⟨slot, rfl⟩ := Option.isSome_iff_exists.1 (hsome.trans (by simp [hbody]))
      rw [hbody] at carriesSlot
      exact carriesSlot
  have slots := (carriesSlots.mono (fun _ => Iff.rfl) (flatMap_declaredIn_subset fun a ha =>
    attribute_mem_preorder ha)).append content
  have all := (Carries.own (declaredIn src n) (attributeValues made.1)).append slots
  refine ⟨by simp [isFixedStyle, hsort], (all.mono (fun e => ?_) (Subset.refl _)).congr fun bound => ?_⟩
  · simp only [CarriedElement, elementExpressions, elementParts, hsort, hprops, carriedBy_append]
  · simp only [usedExpressionsOptional, usedExpressions, passedExpressions_append]

/-- Every sort of tag carries its expressions. -/
theorem uses_tag (content : UsesContent src names nested n.children)
    (attributes : UsesAttributes src names (attributesOf n))
    (passed : ∀ e, onlyChildExpression? src n = some e → UsesPassed src names e) :
    UsesElement src names nested n := by
  unfold UsesElement
  rw [buildMarkup_eq]
  refine (uses_buildContent content).andThen fun children h => ?_
  unfold buildTag
  cases hsort : sortOf src names n with
  | fragment => exact .pure (tagUses_fragment h (.inl hsort))
  | provider key =>
    refine Yields.map (Q := fun r => r = .fragment children) ?_ fun r hr => ?_
    · exact fun p r q hrun => (finds_buildProvider nested n key children hrun).choose_spec.2.1
    · rw [hr]
      exact tagUses_fragment h (.inr ⟨key, hsort⟩)
  | style => exact uses_buildStyle hsort
  | element tag => exact (uses_buildElement h hsort).map fun _ hr => hr
  | component name => exact (uses_buildInstance h hsort attributes passed).map fun _ hr => hr

end Tag

/-! ### Content, attributes and what is handed over -/

/-- A child is an expression, an element or text. -/
theorem uses_buildChild {nested : Bool} {c : Node}
    (expression : ∀ e, innerExpression? c = some e → UsesExpression src names true e)
    (element : c.isJsx = true → UsesElement src names nested c) :
    Yields (fun r => Carries (CarriedBy src names (childPart? c).toList) (declaredIn src c)
        fun bound => usedExpressionsOptional src bound r)
      (buildChild src names nested c) := by
  cases childCase src names nested c with
  | leaf hbuild hleaf hjsx hspread =>
    rw [hbuild, childPart_of_leaf hjsx hspread]
    refine .pure ((Carries.nil.mono (by simp) (Subset.refl _)).congr fun bound => ?_)
    cases hleaf <;> rfl
  | expression hbuild hcontent hkind hinner hspread =>
    rw [hbuild, childPart_of_expression hcontent hkind hinner hspread]
    refine (expression _ hinner).mono fun r hr => hr.2.mono (fun x => ?_)
      (declaredIn_subset (innerExpression_mem_preorder hinner))
    simp
  | element hbuild hcontent hkind hjsx =>
    rw [hbuild, childPart_of_isJsx hcontent hkind hjsx]
    refine (element hjsx).mono fun r hr => hr.2.mono (fun x => ?_) (Subset.refl _)
    simp [carriedElement_iff hjsx]

/-- The first child comes before the others. -/
theorem uses_nextChild {nested : Bool} {c : Node} {cs : List Node}
    (expression : ∀ e, innerExpression? c = some e → UsesExpression src names true e)
    (element : c.isJsx = true → UsesElement src names nested c)
    (rest : UsesContent src names nested cs) : UsesContent src names nested (c :: cs) := by
  unfold UsesContent
  rw [buildChildren_cons]
  refine (uses_buildChild expression element).andThen fun r hr => rest.andThen fun rs hrs => ?_
  have first := hr.mono (fun _ => Iff.rfl) (subset_append_left _ (cs.flatMap (declaredIn src)))
  have others := hrs.mono (fun _ => Iff.rfl) (subset_append_right (declaredIn src c) _)
  refine .pure (((first.append others).mono (fun e => ?_) (Subset.refl _)).congr fun bound => ?_)
  · rw [← carriedBy_append]
    cases hpart : childPart? c <;> simp [hpart]
  · rw [usedExpressionsAll_append, usedExpressionsAll_toList]

/-- The first entry of a filtered list, apart. -/
theorem filterMap_cons_toList {α β : Type} (f : α → Option β) (a : α) (as : List α) :
    (a :: as).filterMap f = (f a).toList ++ as.filterMap f := by
  cases h : f a <;> simp [h]

/-- An attribute adds a prop or a slot, whichever it is. -/
theorem uses_addToInstance {a : Node} {rest : List Node} (name : String)
    {slot : Option SlotContent} {made : List Attribute × List SlotContent}
    (hkind : a.kind ≠ "jsx_expression") (hkey : plainName? src a ≠ some "key")
    (hslot : slot.isSome = (attributeBody? src a).isSome)
    (hprops : attributeValues made.1 = rest.filterMap (propValue? src)) :
    attributeValues (addToInstance name a slot made).1 = (a :: rest).filterMap (propValue? src) ∧
      ∀ bound, passedExpressions src bound (addToInstance name a slot made).2 =
        passedExpressions src bound slot.toList ++ passedExpressions src bound made.2 := by
  rw [filterMap_cons_toList, ← hprops]
  cases slot with
  | none =>
    have value : propValue? src a = attributeValue? a := by
      simp [propValue?, hkind, hkey, ← hslot]
    refine ⟨?_, fun bound => rfl⟩
    rw [value, addToInstance, attributeValues, filterMap_cons_toList]
    rfl
  | some slot =>
    have value : propValue? src a = none := by
      simp [propValue?, hkind, ← hslot]
    refine ⟨by rw [value]; rfl, fun bound => ?_⟩
    rw [← passedExpressions_append]
    rfl

/-- The first attribute comes before the others. -/
theorem uses_nextAttribute {a : Node} {rest : List Node}
    (passed : ∀ value, valueExpression? a = some value → UsesPassed src names value)
    (others : UsesAttributes src names rest) : UsesAttributes src names (a :: rest) := by
  have wider {S : Node → Prop} {used : List String → List (Node × List String)}
      (h : Carries S (rest.flatMap (declaredIn src)) used) :
      Carries S ((a :: rest).flatMap (declaredIn src)) used :=
    h.mono (fun _ => Iff.rfl) (subset_append_right _ _)
  unfold UsesAttributes
  rw [buildInstanceAttributes_cons]
  split
  · rename_i hkind
    refine others.andThen fun made hmade => .pure ⟨?_, ?_⟩
    · have value : propValue? src a = (spreadAttribute? a).bind (·.value) := by
        simp [propValue?, spreadValue?, hkind]
      rw [filterMap_cons_toList, ← hmade.1, value, attributeValues, filterMap_append]
      cases spreadAttribute? a with
      | none => rfl
      | some spread => simp [attributeValues, filterMap_cons_toList]
    · simpa [attributeBody?, hkind] using wider hmade.2
  rename_i hkind
  refine (yields_attributeName src a).andThen fun name named => ?_
  have plain : plainName? src a = some name := by simp [plainName?, hkind, named]
  split
  · rename_i hkey
    intro p made q hrun
    obtain ⟨hprops, hslots⟩ := others hrun
    -- A key is not handed on.
    have key : name = "key" := by simpa using hkey
    refine ⟨?_, ?_⟩
    · simpa [propValue?, hkind, plain, key] using hprops
    · simpa [attributeBody?, hkind, plain, key] using wider hslots
  · rename_i hkey
    have notKey : plainName? src a ≠ some "key" := by simpa [plain] using hkey
    have body : attributeBody? src a = (valueExpression? a).bind handedBody? := by
      simp [attributeBody?, hkind, notKey]
    refine (uses_passedOptional passed (fun e he => valueExpression_mem_preorder he) name).andThen
      fun slot hslot => others.andThen fun made hmade => .pure ?_
    obtain ⟨hsome, carriesSlot⟩ := hslot
    rw [← body] at hsome carriesSlot
    have added := uses_addToInstance name (by simpa using hkind) notKey hsome hmade.1
    refine ⟨added.1, ?_⟩
    have first := carriesSlot.mono (fun _ => Iff.rfl)
      (subset_append_left _ (rest.flatMap (declaredIn src)))
    refine ((first.append (wider hmade.2)).mono (fun e => ?_) (Subset.refl _)).congr added.2
    rw [filterMap_cons_toList, carriedBy_append]

/-- The parameters of markup that is handed over are those of a function. -/
theorem passedParameters_subset (src : Source) {v b : Node} {parameters : Option Node}
    (h : passedParts? v = some (parameters, b)) : boundNamesOf src parameters ⊆ declaredIn src v := by
  unfold passedParts? at h
  split at h
  · cases h
    exact nil_subset _
  split at h
  · rename_i hfunction
    obtain ⟨returned, -, hparts⟩ := Option.map_eq_some_iff.1 h
    cases hparts
    have isFunction : v.isFunction = true := (Bool.and_eq_true_iff.1 hfunction).1
    exact Subset.trans (boundNames_slotParameters_subset isFunction (mem_preorder_self v))
      (subset_append_right _ _)
  · cases h

/-- A function that is passed carries what its body carries. -/
theorem uses_handed {value v : Node} (hbare : value.bare? = some v)
    (body : ∀ parameters b, passedParts? v = some (parameters, b) →
      UsesExpression src names true b) : UsesPassed src names value := by
  intro name
  have handed : handedBody? value = (passedParts? v).map (·.2) := by simp [handedBody?, hbare]
  rw [passedMarkup_of_bare src names hbare, handed]
  cases hparts : passedParts? v with
  | none => exact .pure ⟨rfl, Carries.nil.mono (by simp) (Subset.refl _)⟩
  | some parts =>
    obtain ⟨parameters, b⟩ := parts
    have inside := preorder_trans (passedParts_mem_preorder hparts) (bare_mem_preorder hbare)
    refine (body parameters b hparts).andThen fun r hr => .pure ⟨rfl, ?_⟩
    have carries := hr.2.mono (fun _ => Iff.rfl) (declaredIn_subset inside)
    have received := Subset.trans (passedParameters_subset src hparts)
      (declaredIn_subset (bare_mem_preorder hbare))
    refine ((carries.under received).mono (by simp) (Subset.refl _)).congr fun bound => ?_
    simp [passedExpressions, usedExpressions_getD_nothing]

/-- Every builder carries the expressions of its node. -/
theorem uses_cases : BuildCases src (UsesExpression src names) (UsesBare src names)
    (UsesElement src names) (UsesContent src names) (UsesAttributes src names)
    (UsesPassed src names) where
  failed h := by
    unfold UsesExpression
    rw [buildExpression_of_none h]
    exact .throw _
  bare := uses_of_bare
  empty := uses_empty
  markup := uses_markup
  conjunction := uses_conjunction
  ternary := uses_ternary
  other := uses_other
  tag := uses_tag
  noContent {nested} := by
    unfold UsesContent
    rw [buildChildren.eq_def]
    exact .pure (Carries.nil.mono (by simp) (Subset.refl _))
  nextChild := uses_nextChild
  noAttributes := by
    unfold UsesAttributes
    rw [buildInstanceAttributes]
    exact .pure ⟨rfl, Carries.nil.mono (by simp) (Subset.refl _)⟩
  nextAttribute := uses_nextAttribute
  notPassed h name := by
    rw [passedMarkup_of_none src names h]
    exact .throw _
  handed := uses_handed

/-- **Expressions of trees.** The tree of an expression has the expressions that are carried, each
with names around it that are bound or declared in the expression. -/
theorem uses_buildExpression (nested : Bool) (n : Node) :
    Yields (fun r => Carries (Carried src names n) (declaredIn src n) fun bound =>
      usedExpressionsOptional src bound r) (buildExpression src names nested n) :=
  fun _ _ _ hrun => (uses_cases.ofExpression nested n hrun).2

end Sveltify.Render
