import Sveltify.Proofs.Render.Accounts
import Sveltify.Proofs.Render.Uses

namespace Sveltify.Render

open Text Component Analysis Node List

/-!
# Providers that are shown are written down

* `Recorded`: every provider that some expressions show is among the findings;
* `recorded_buildExpression`: building an expression writes down every provider that it shows.
-/

/-- The node is found as a provider. -/
def IsFound (fs : List Finding) (y : Node) : Prop := ∃ use, .provider use ∈ fs ∧ use.node = y

/-- Every provider that is shown by one of the expressions is found. -/
def Recorded (src : Source) (names : Names) (parts : List Node) (fs : List Finding) : Prop :=
  ∀ p ∈ parts, ∀ y, Shown src names p y → isProvider src names y = true → IsFound fs y

variable {src : Source} {names : Names}

theorem IsFound.mono {fs fs' : List Finding} {y : Node} (h : IsFound fs y) (hsub : fs ⊆ fs') :
    IsFound fs' y := by
  obtain ⟨use, huse, hnode⟩ := h
  exact ⟨use, hsub huse, hnode⟩

namespace Recorded

variable {parts parts' : List Node} {fs fs' : List Finding}

theorem nil (fs : List Finding) : Recorded src names [] fs := fun _ h => by cases h

/-- Fewer parts, or more findings. -/
theorem mono (h : Recorded src names parts fs) (hparts : parts' ⊆ parts) (hfs : fs ⊆ fs') :
    Recorded src names parts' fs' :=
  fun p hp y hy hprovider => (h p (hparts hp) y hy hprovider).mono hfs

theorem append (h : Recorded src names parts fs) (h' : Recorded src names parts' fs') :
    Recorded src names (parts ++ parts') (fs ++ fs') := by
  intro p hp y hy hprovider
  rcases mem_append.1 hp with hp | hp
  · exact (h p hp y hy hprovider).mono (subset_append_left _ _)
  · exact (h' p hp y hy hprovider).mono (subset_append_right _ _)

end Recorded

/-- An expression shows itself and what its parts show. -/
theorem recorded_of_parts {n m : Node} {fs : List Finding} (hbare : n.bare? = some m)
    (self : isProvider src names m = true → IsFound fs m)
    (parts : Recorded src names (bareParts src names m) fs) : Recorded src names [n] fs := by
  intro p hp y hy hprovider
  obtain rfl := mem_singleton.1 hp
  rcases shown_iff.1 hy with rfl | ⟨part, hpart, hshown⟩
  · obtain rfl : y = m :=
      Option.some.inj ((bare_of_isJsx (isJsx_of_isProvider hprovider)).symm.trans hbare)
    exact self hprovider
  · have member : part ∈ bareParts src names m := by simpa [shownParts, hbare] using hpart
    exact parts part member y hshown hprovider

/-! ### Expressions -/

/-- What is shown of expressions. -/
abbrev RecordsExpression (src : Source) (names : Names) (nested : Bool) (n : Node) : Prop :=
  Finds src (fun _ fs => Recorded src names [n] fs) (buildExpression src names nested n)

/-- What is shown of expressions without wrappers. -/
abbrev RecordsBare (src : Source) (names : Names) (nested : Bool) (n : Node) : Prop :=
  Finds src (fun _ fs => (isProvider src names n = true → IsFound fs n) ∧
    Recorded src names (bareParts src names n) fs) (buildBare src names nested n)

theorem records_buildOptional {nested : Bool} {part : Option Node}
    (h : ∀ c, part = some c → RecordsExpression src names nested c) :
    Finds src (fun _ fs => Recorded src names part.toList fs)
      (buildOptional src names nested part) := by
  cases part with
  | none => exact .pure (.nil _)
  | some c => exact h c rfl

/-- An expression that is no JSX element is no provider. -/
theorem records_of_not_jsx {nested : Bool} {n : Node} (hjsx : n.isJsx = false)
    (h : Finds src (fun _ fs => Recorded src names (bareParts src names n) fs)
      (buildBare src names nested n)) : RecordsBare src names nested n := by
  refine h.mono fun r fs recorded => ⟨fun hprovider => ?_, recorded⟩
  rw [isJsx_of_isProvider hprovider] at hjsx
  cases hjsx

section Bare

variable {nested : Bool} {n : Node}

theorem records_empty (h : isEmptyLiteral src n = true) : RecordsBare src names nested n := by
  refine records_of_not_jsx (not_isJsx_of_isEmptyLiteral h) ?_
  rw [buildBare_empty src names h, bareParts, if_pos h]
  exact .pure (.nil _)

variable (hempty : isEmptyLiteral src n = false)

include hempty

/-- A conjunction records its right-hand side. -/
theorem records_conjunction (hand : isConjunction n = true)
    (right : ∀ c, n.field? "right" = some c → RecordsExpression src names true c) :
    RecordsBare src names nested n := by
  have hkind : n.kind = "binary_expression" := by simp_all [isConjunction]
  have notJsx : n.isJsx = false := by simp [isJsx, jsxKinds, hkind]
  have parts : bareParts src names n = (n.field? "right").toList := by
    simp [bareParts, hempty, notJsx, hand]
  refine records_of_not_jsx notJsx ?_
  rw [buildBare_conjunction hempty hand, parts]
  exact (records_buildOptional right).bind fun r fs recorded => .pure (by simpa using recorded)

/-- A ternary expression records both branches. -/
theorem records_ternary (hkind : n.kind = "ternary_expression")
    (consequence : ∀ c, n.field? "consequence" = some c → RecordsExpression src names true c)
    (alternative : ∀ c, n.field? "alternative" = some c → RecordsExpression src names true c) :
    RecordsBare src names nested n := by
  have notJsx : n.isJsx = false := by simp [isJsx, jsxKinds, hkind]
  have notAnd : isConjunction n = false := by simp [isConjunction, hkind]
  refine records_of_not_jsx notJsx ?_
  rw [buildBare_ternary hempty hkind]
  refine .after (unrecorded_sideSteps.ofAnyRendered names _) (yields_anyRendered _)
    fun rendered hrendered => ?_
  have condition : isRenderedCondition src names n = rendered := hrendered.symm
  have parts : bareParts src names n = if rendered then
      (n.field? "consequence").toList ++ (n.field? "alternative").toList else [] := by
    simp [bareParts, hempty, notJsx, notAnd, hkind, condition]
  rw [parts]
  cases rendered with
  | false => exact Finds.pure (.nil _)
  | true =>
    refine (records_buildOptional consequence).bind fun r fs first => ?_
    exact (records_buildOptional alternative).bind fun r' fs' second =>
      .pure (by simpa using first.append second)

/-- Any other expression is a list or a value. -/
theorem records_other (hjsx : n.isJsx = false) (hand : isConjunction n = false)
    (hternary : n.kind ≠ "ternary_expression")
    (items : ∀ iterable callback declarations returned,
      mappedList? src n = some (iterable, callback) →
      callbackBody callback = some (declarations, some returned) →
      RecordsExpression src names true returned) :
    RecordsBare src names nested n := by
  refine records_of_not_jsx hjsx ?_
  rw [buildBare_other src names hempty hjsx hand hternary]
  refine .after (.lift _) (P := fun isList => isItemList src names n = .ok isList)
    (fun p isList q hrun => (lift_ok_iff.1 hrun).1) fun isList hlist => ?_
  have parts : bareParts src names n =
      if isList then (listParts? src n).toList.map (·.2) else [] := by
    simp [bareParts, hempty, hjsx, hand, hternary, isRenderedList, hlist, Except.toOption]
  rw [parts]
  cases isList with
  | false =>
    exact (accounts_buildValue n [] []).mono fun r fs account => .nil _
  | true =>
    cases hparts : listParts? src n with
    | none =>
      -- A list that is not understood has no parts.
      have accounts : AccountsItems src names n :=
        fun _ _ _ returned _ _ => accounts_buildExpression true returned
      exact (accounts_buildMapped accounts).mono fun r fs account => .nil _
    | some parts =>
      obtain ⟨iterable, callback, bindings, declarations, hmapped, hbindings, hbody, -⟩ :=
        exists_of_listParts hparts
      rw [hmapped, buildMapped, hbindings, hbody]
      refine .andThen (.lift _) fun key => ?_
      exact (items _ _ _ _ hmapped hbody).bind fun r fs recorded => .pure (by simpa using recorded)

end Bare

/-! ### JSX elements -/

/-- What is shown of JSX elements. -/
abbrev RecordsElement (src : Source) (names : Names) (nested : Bool) (n : Node) : Prop :=
  Finds src (fun _ fs => (isProvider src names n = true → IsFound fs n) ∧
    Recorded src names (elementParts src names n) fs) (buildMarkup src names nested n)

/-- What is shown of the nodes between tags. -/
abbrev RecordsContent (src : Source) (names : Names) (nested : Bool) (cs : List Node) : Prop :=
  Finds src (fun _ fs => Recorded src names (cs.filterMap childPart?) fs)
    (buildChildren src names nested cs)

/-- What is shown of the attributes of a component instance. -/
abbrev RecordsAttributes (src : Source) (names : Names) (attributes : List Node) : Prop :=
  Finds src (fun _ fs => Recorded src names (attributes.filterMap (attributeBody? src)) fs)
    (buildInstanceAttributes src names attributes)

/-- What is shown of a value that is handed over. -/
abbrev RecordsPassed (src : Source) (names : Names) (value : Node) : Prop :=
  ∀ name, Finds src (fun _ fs => Recorded src names (handedBody? value).toList fs)
    (passedMarkup src names name value)

/-- An element that stands as an expression. -/
theorem records_markup {nested : Bool} {n : Node} (hempty : isEmptyLiteral src n = false)
    (hjsx : n.isJsx = true) (h : RecordsElement src names nested n) :
    RecordsBare src names nested n := by
  unfold RecordsBare
  rw [buildBare_markup src names hempty hjsx, bareParts_of_isJsx hjsx]
  exact h

/-- The content of an element is recorded. -/
theorem records_buildContent {nested : Bool} {n : Node}
    (h : RecordsContent src names nested n.children) :
    Finds src (fun _ fs => Recorded src names (contentParts n) fs)
      (buildContent src names nested n) := by
  unfold buildContent contentParts
  split
  · exact .pure (.nil _)
  · exact h

/-- A slot records its body. -/
theorem records_passedOptional {value : Option Node}
    (h : ∀ e, value = some e → RecordsPassed src names e) (name : String) :
    Finds src (fun _ fs => Recorded src names (value.bind handedBody?).toList fs)
      (passedOptional src names name value) := by
  cases value with
  | none => exact .pure (.nil _)
  | some e => exact h e rfl name

/-- What a component instance is handed between its tags is built as content or on its own. -/
theorem instanceParts_subset (n : Node) :
    instanceParts src n ⊆ contentParts n ++ ((onlyChildExpression? src n).bind handedBody?).toList := by
  unfold instanceParts
  cases (onlyChildExpression? src n).bind handedBody? with
  | none => exact subset_append_left _ _
  | some body => exact subset_append_right _ _

/-- Every sort of tag records its parts. -/
theorem records_tag {nested : Bool} {n : Node}
    (content : RecordsContent src names nested n.children)
    (attributes : RecordsAttributes src names (attributesOf n))
    (passed : ∀ e, onlyChildExpression? src n = some e → RecordsPassed src names e) :
    RecordsElement src names nested n := by
  unfold RecordsElement
  rw [buildMarkup_eq]
  refine (records_buildContent content).bind fun children fs recorded => ?_
  unfold buildTag elementParts isProvider
  -- An instance has markup in its attributes as well. A style, and an element whose content is
  -- given as text, have no parts.
  cases hsort : sortOf src names n with
  | fragment => exact .pure ⟨by simp, by simpa using recorded⟩
  | provider key =>
    refine (finds_buildProvider nested n key children).map fun r fs' found => ?_
    obtain ⟨-, use, rfl, -, hnode, -⟩ := found
    refine ⟨fun _ => ⟨use, by simp, hnode⟩, ?_⟩
    exact recorded.mono (Subset.refl _) (subset_append_left _ _)
  | style => exact (finds_buildStyle n).mono fun r fs' found => ⟨by simp, .nil _⟩
  | element tag =>
    refine (finds_buildElement n tag children).map fun r fs' found => ⟨by simp, ?_⟩
    dsimp only
    split
    · exact .nil _
    · exact recorded.mono (Subset.refl _) (subset_append_left _ _)
  | component name =>
    refine .map (Q := fun _ fs' => Recorded src names
      ((attributesOf n).filterMap (attributeBody? src) ++ instanceParts src n) (fs ++ fs')) ?_
      fun r fs' found => ⟨by simp, found⟩
    refine .andThen unrecorded_freshId fun id => ?_
    refine attributes.bind fun made fsA first => ?_
    refine (records_passedOptional passed "children").bind fun slot fsP second => .pure ?_
    have all := (first.append (recorded.append second))
    refine all.mono ?_ (by simp)
    exact append_subset.2 ⟨subset_append_left _ _,
      Subset.trans (instanceParts_subset n) (subset_append_right _ _)⟩

/-! ### Content, attributes and what is handed over -/

/-- A child is an expression, an element or text. -/
theorem records_buildChild {nested : Bool} {c : Node}
    (expression : ∀ e, innerExpression? c = some e → RecordsExpression src names true e)
    (element : c.isJsx = true → RecordsElement src names nested c) :
    Finds src (fun _ fs => Recorded src names (childPart? c).toList fs)
      (buildChild src names nested c) := by
  cases childCase src names nested c with
  | leaf hbuild _ hjsx hspread =>
    rw [hbuild, childPart_of_leaf hjsx hspread]
    exact .pure (.nil _)
  | expression hbuild hcontent hkind hinner hspread =>
    rw [hbuild, childPart_of_expression hcontent hkind hinner hspread]
    exact expression _ hinner
  | element hbuild hcontent hkind hjsx =>
    rw [hbuild, childPart_of_isJsx hcontent hkind hjsx]
    refine (element hjsx).mono fun r fs found => recorded_of_parts (bare_of_isJsx hjsx) found.1 ?_
    rw [bareParts_of_isJsx hjsx]
    exact found.2

/-- The first child comes before the others. -/
theorem records_nextChild {nested : Bool} {c : Node} {cs : List Node}
    (expression : ∀ e, innerExpression? c = some e → RecordsExpression src names true e)
    (element : c.isJsx = true → RecordsElement src names nested c)
    (rest : RecordsContent src names nested cs) : RecordsContent src names nested (c :: cs) := by
  unfold RecordsContent
  rw [buildChildren_cons, filterMap_cons_toList]
  refine (records_buildChild expression element).bind fun r fs first => ?_
  exact rest.bind fun rs fs' second => .pure (by simpa using first.append second)

/-- The first attribute comes before the others. -/
theorem records_nextAttribute {a : Node} {rest : List Node}
    (passed : ∀ value, valueExpression? a = some value → RecordsPassed src names value)
    (others : RecordsAttributes src names rest) : RecordsAttributes src names (a :: rest) := by
  unfold RecordsAttributes
  rw [buildInstanceAttributes_cons, filterMap_cons_toList]
  split
  · rename_i hkind
    refine others.bind fun made fs recorded => .pure ?_
    simpa [attributeBody?, hkind] using recorded
  rename_i hkind
  refine .after (.lift _) (yields_attributeName src a) fun name named => ?_
  have plain : plainName? src a = some name := by simp [plainName?, hkind, named]
  split
  · rename_i hkey
    have key : name = "key" := by simpa using hkey
    refine others.mono fun made fs recorded => ?_
    simpa [attributeBody?, hkind, plain, key] using recorded
  · refine (records_passedOptional passed name).bind fun slot fs first => ?_
    refine others.bind fun made fs' second => .pure ?_
    have all := first.append second
    refine all.mono (append_subset.2 ⟨?_, subset_append_right _ _⟩) (by simp)
    unfold attributeBody?
    split
    · exact nil_subset _
    · exact subset_append_left _ _

/-- A function that is passed records its body. -/
theorem records_handed {value v : Node} (hbare : value.bare? = some v)
    (body : ∀ parameters b, passedParts? v = some (parameters, b) →
      RecordsExpression src names true b) : RecordsPassed src names value := by
  intro name
  have handed : handedBody? value = (passedParts? v).map (·.2) := by simp [handedBody?, hbare]
  rw [passedMarkup_of_bare src names hbare, handed]
  cases hparts : passedParts? v with
  | none => exact .pure (.nil _)
  | some parts =>
    exact (body parts.1 parts.2 hparts).bind fun r fs recorded => .pure (by simpa using recorded)

/-- Every builder records what is shown. -/
theorem records_cases : BuildCases src (RecordsExpression src names) (RecordsBare src names)
    (RecordsElement src names) (RecordsContent src names) (RecordsAttributes src names)
    (RecordsPassed src names) where
  failed h := by
    unfold RecordsExpression
    rw [buildExpression_of_none h]
    exact .throw _
  bare hbare h := by
    unfold RecordsExpression
    rw [buildExpression_of_bare hbare]
    exact h.mono fun r fs found => recorded_of_parts hbare found.1 found.2
  empty := records_empty
  markup := records_markup
  conjunction := records_conjunction
  ternary := records_ternary
  other := records_other
  tag := records_tag
  noContent {nested} := by
    unfold RecordsContent
    rw [buildChildren.eq_def]
    exact .pure (.nil _)
  nextChild := records_nextChild
  noAttributes := by
    unfold RecordsAttributes
    rw [buildInstanceAttributes]
    exact .pure (.nil _)
  nextAttribute := records_nextAttribute
  notPassed h name := by
    rw [passedMarkup_of_none src names h]
    exact .throw _
  handed := records_handed

/-- **Providers.** Building an expression writes down every provider that it shows. -/
theorem recorded_buildExpression (nested : Bool) (n : Node) :
    RecordsExpression src names nested n :=
  records_cases.ofExpression nested n

end Sveltify.Render
