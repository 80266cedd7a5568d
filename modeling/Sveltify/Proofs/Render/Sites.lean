import Sveltify.Proofs.Render.Builders

namespace Sveltify.Render

open Text Node List

/-!
# Where building goes

What stands between the tags of a JSX element is built before it is known what the element is. So
some content is built and then left out, and one kind of content is built twice.

* `repeated?`: the content of a component instance that is built a second time;
* `leftOut`, `dropped`: content that is built although its pieces are not shown;
* `sites`: the nodes of a tree, those of repeated content once more;
* `plainProviders`: the providers that stand in an element behind tags only;
* `builtContent`, `expressionSite?`, `passedSite?`: the parts of an element that are built;
* `subperm_sites_of_children`, `subperm_sites_of_component`: these parts stand apart, but for
  repeated content.
-/

variable (src : Source) (names : Names)

/-! ### Content that is built twice or left out -/

/-- The content of a component instance that is built a second time, as markup that is handed over:
an expression that stands alone between the tags and is JSX. -/
def repeated? (n : Node) : Option Node :=
  match sortOf src names n with
  | .component _ => (onlyChildExpression? src n).filter fun e => e.bare?.any isJsx
  | _ => none

theorem onlyChild_of_repeated {n e : Node} (h : repeated? src names n = some e) :
    onlyChildExpression? src n = some e := by
  unfold repeated? at h
  split at h
  · exact (Option.filter_eq_some_iff.1 h).1
  · cases h

/-- What is built again is smaller. -/
theorem size_repeated {n e : Node} (h : repeated? src names n = some e) : e.size < n.size :=
  size_onlyChildExpression src (onlyChild_of_repeated src names h)

/-- Does the attribute give the content of an element as text? -/
def givesHtml (attr : Node) : Bool :=
  attr.firstNamed?.map src.text == some "dangerouslySetInnerHTML"
    && (valueExpression? attr).any fun value => (innerHtml? src value).toOption.join.isSome

/-- The content of a JSX element that is built although its pieces are not shown. -/
def leftOut (n : Node) : List Node :=
  match sortOf src names n with
  | .style => n.children
  | .element _ => if (attributesOf n).any (givesHtml src) then n.children else []
  | .component _ => (repeated? src names n).toList
  | _ => []

/-- The nodes of a tree that stand in content that is left out. -/
def dropped (n : Node) : List Node :=
  n.preorder.flatMap fun m => (leftOut src names m).flatMap preorder

/-- Parts drop no more than the whole. -/
theorem dropped_subset {m n : Node} (h : m ∈ n.preorder) :
    dropped src names m ⊆ dropped src names n := by
  intro x hx
  obtain ⟨l, hl, hx⟩ := mem_flatMap.1 hx
  exact mem_flatMap.2 ⟨l, preorder_trans hl h, hx⟩

theorem mem_dropped_of_leftOut {n c x : Node} (hc : c ∈ leftOut src names n)
    (hx : x ∈ c.preorder) : x ∈ dropped src names n :=
  mem_flatMap.2 ⟨n, mem_preorder_self n, mem_flatMap.2 ⟨c, hc, hx⟩⟩

/-- The nodes of a tree; those of content that is built twice are listed once more. -/
def sites (n : Node) : List Node :=
  n :: (n.children.attach.flatMap fun c => sites c.1) ++
    match _h : repeated? src names n with
    | some e => sites e
    | none => []
termination_by n.size
decreasing_by
  · exact size_child c.2
  · exact size_repeated src names _h

theorem sites_eq (n : Node) :
    sites src names n = n :: (n.children.flatMap (sites src names) ++
      (repeated? src names n).toList.flatMap (sites src names)) := by
  rw [sites]
  split <;> rename_i h
  all_goals rw [h]
  all_goals simp [flatMap_subtype]

/-- Sites are gathered part by part. -/
theorem gathers_sites : Gathers (sites src names) := by
  intro n
  rw [sites_eq]
  exact ((sublist_append_left _ _).trans (sublist_cons_self _ _)).subperm

variable {src names}

theorem onlyChildExpression_mem {n e : Node} (h : onlyChildExpression? src n = some e) :
    ∃ only ∈ n.namedChildren, only.kind = "jsx_expression" ∧ innerExpression? only = some e ∧
      n.kind = "jsx_element" ∧ ∀ c ∈ n.namedChildren, c ≠ only →
        c.kind = "jsx_opening_element" ∨ c.kind = "jsx_closing_element" ∨ c.kind = "jsx_text" := by
  unfold onlyChildExpression? at h
  split at h
  · rename_i hkind
    dsimp only at h
    split at h
    · rename_i only honly
      split at h
      · rename_i hexpression
        have hmem : only ∈ n.namedChildren.filter _ := honly ▸ mem_singleton.2 rfl
        refine ⟨only, (mem_filter.1 hmem).1, eq_of_beq hexpression, h, eq_of_beq hkind, ?_⟩
        -- Any other child would have come through the filter as well.
        intro c hc hne
        by_contra hkinds
        simp only [not_or] at hkinds
        have : c ∈ [only] := honly ▸ mem_filter.2 ⟨hc, by simp [hkinds]⟩
        exact hne (mem_singleton.1 this)
      · cases h
    · cases h
  · cases h

/-- What is built again stands in the element. -/
theorem repeated_mem_preorder {n e : Node} (h : repeated? src names n = some e) :
    e ∈ n.preorder := by
  obtain ⟨only, honly, -, hinner, -⟩ := onlyChildExpression_mem (onlyChild_of_repeated src names h)
  exact preorder_trans (innerExpression_mem_preorder hinner)
    (child_mem_preorder (namedChildren_subset honly) (mem_preorder_self n))

/-- A node that is listed is a node of the tree. -/
theorem mem_preorder_of_mem_sites {m n : Node} (h : m ∈ sites src names n) : m ∈ n.preorder := by
  rw [sites_eq] at h
  rcases mem_cons.1 h with rfl | h
  · exact mem_preorder_self _
  rcases mem_append.1 h with h | h
  · obtain ⟨c, hc, hm⟩ := mem_flatMap.1 h
    exact mem_preorder_iff.2 (.inr ⟨c, hc, mem_preorder_of_mem_sites hm⟩)
  · obtain ⟨e, he, hm⟩ := mem_flatMap.1 h
    have hrepeated := Option.mem_toList.1 he
    exact preorder_trans (mem_preorder_of_mem_sites hm) (repeated_mem_preorder hrepeated)
termination_by n.size
decreasing_by
  · exact size_child hc
  · exact size_repeated _ _ hrepeated

/-- A sort of nodes that does not occur in repeated content is listed as in the tree. -/
theorem filter_sites {sort : Node → Bool} {n : Node}
    (h : ∀ m ∈ n.preorder, ∀ e ∈ repeated? src names m, ∀ x ∈ e.preorder, sort x = false) :
    (sites src names n).filter sort = n.preorder.filter sort := by
  have none : ((repeated? src names n).toList.flatMap (sites src names)).filter sort = [] := by
    refine filter_eq_nil_iff.2 fun x hx => ?_
    obtain ⟨e, he, hx⟩ := mem_flatMap.1 hx
    simp [h n (mem_preorder_self n) e (Option.mem_toList.1 he) x (mem_preorder_of_mem_sites hx)]
  have children : (n.children.flatMap (sites src names)).filter sort
      = (n.children.flatMap preorder).filter sort := by
    rw [filter_flatMap, filter_flatMap]
    refine flatMap_congr fun c hc => filter_sites fun m hm => h m ?_
    exact preorder_trans hm (child_mem_preorder hc (mem_preorder_self n))
  rw [sites_eq, preorder_eq, filter_cons, filter_cons, filter_append, none, append_nil, children]
termination_by n.size
decreasing_by exact size_child hc

/-! ### Providers behind tags -/

variable (src names)

/-- Is the JSX element a provider of a context? -/
def isProvider (n : Node) : Bool :=
  match sortOf src names n with
  | .provider _ => true
  | _ => false

/-- The providers that stand in a JSX element behind tags only, in the order in which they are
built. -/
def plainProviders (n : Node) : List Node :=
  (if n.kind == "jsx_self_closing_element" then []
    else n.children.attach.flatMap fun c =>
      if isContent c.1 && c.1.isJsx then plainProviders c.1 else [])
    ++ if isProvider src names n then [n] else []
termination_by n.size
decreasing_by exact size_child c.2

/-- The providers that stand behind tags only in an expression that is JSX. -/
def plainIn (n : Node) : List Node :=
  match n.bare? with
  | some m => if m.isJsx then plainProviders src names m else []
  | none => []

/-- The providers that stand behind tags only in a node between tags. -/
def plainBehind (c : Node) : List Node :=
  if isContent c && c.isJsx then plainProviders src names c else []

/-- The providers that stand behind tags only in the content of a JSX element. -/
def plainContent (n : Node) : List Node :=
  if n.kind == "jsx_self_closing_element" then []
  else n.children.flatMap (plainBehind src names)

theorem plainProviders_eq (n : Node) :
    plainProviders src names n =
      plainContent src names n ++ if isProvider src names n then [n] else [] := by
  rw [plainProviders, plainContent,
    show plainBehind src names = fun c => plainBehind src names c from rfl]
  simp only [plainBehind, flatMap_subtype, unattach_attach]

/-! ### The parts of an element that are built -/

variable {src names}

/-- The node that is built for an expression. A function is not rendered. -/
def expressionSite? (n : Node) : Option Node := n.bare?.filter fun m => !m.isFunction

/-- The node that is built for a node between tags. -/
def childSite? (c : Node) : Option Node :=
  if isContent c then
    if c.kind == "jsx_expression" then (innerExpression? c).bind expressionSite?
    else if c.isJsx then some c else none
  else none

/-- The nodes that are built for nodes between tags. -/
def contentSites (cs : List Node) : List Node := cs.flatMap fun c => (childSite? c).toList

/-- The nodes that are built between the tags of an element. -/
def builtContent (n : Node) : List Node :=
  if n.kind == "jsx_self_closing_element" then [] else contentSites n.children

/-- The node that is built for a value that is handed over. -/
def passedSite? (value : Node) : Option Node :=
  value.bare?.filter fun v => v.isJsx || v.isFunction

theorem apart_expressionSite {n m : Node} (h : expressionSite? n = some m) : Apart [m] [n] :=
  Apart.bare (Option.filter_eq_some_iff.1 h).1

/-- The site of a child is a part of it. -/
theorem apart_childSite (c : Node) : Apart (childSite? c).toList [c] := by
  unfold childSite?
  split
  · split
    · cases hinner : innerExpression? c with
      | none => exact Apart.nil _
      | some e =>
        cases hsite : expressionSite? e with
        | none => simpa [hsite] using Apart.nil _
        | some m =>
          rw [Option.bind_some, hsite]
          exact (apart_expressionSite hsite).trans
            (.of_mem_preorder (innerExpression_mem_preorder hinner))
    · split
      · exact Apart.refl _
      · exact Apart.nil _
  · exact Apart.nil _

theorem childSite_of_not_content {c : Node} (h : isContent c = false) : childSite? c = none := by
  rw [childSite?, if_neg (by simp [h])]

/-- The sites of children lie apart. -/
theorem apart_contentSites (cs : List Node) : Apart (contentSites cs) (cs.filter isContent) := by
  induction cs with
  | nil => exact Apart.nil _
  | cons c cs ih =>
    rw [contentSites, flatMap_cons, filter_cons]
    split
    · exact (apart_childSite c).append ih
    · rename_i h
      rw [childSite_of_not_content (by simpa using h)]
      exact ih

theorem attributesOf_sublist {n holder : Node} (h : tagHolder? n = some holder) :
    attributesOf n <+ holder.namedChildren := by
  rw [attributesOf, h]
  exact filter_sublist

theorem attributesOf_of_no_holder {n : Node} (h : tagHolder? n = none) : attributesOf n = [] := by
  rw [attributesOf, h]

/-- Attributes are parts of the tag. -/
theorem apart_attributes {n holder : Node} (h : tagHolder? n = some holder) :
    Apart (attributesOf n) [holder] :=
  .of_children ((attributesOf_sublist h).trans filter_sublist).subperm

/-- The opening tag is no content. -/
theorem not_isContent_holder {n holder : Node} (h : n.field? "open_tag" = some holder) :
    isContent holder = false := by
  have hfield : holder.field = some "open_tag" := by simpa using find?_some h
  simp [isContent, hfield]

/-- The content of an element and its attributes stand apart. -/
theorem apart_parts (n : Node) : Apart (builtContent n ++ attributesOf n) n.children := by
  have content : Apart (builtContent n) (n.children.filter isContent) := by
    unfold builtContent
    split
    · exact Apart.nil _
    · exact apart_contentSites _
  by_cases hself : n.kind = "jsx_self_closing_element"
  · have holder : tagHolder? n = some n := by simp [tagHolder?, hself]
    rw [builtContent, if_pos (by simp [hself]), nil_append]
    exact .of_subperm ((attributesOf_sublist holder).trans filter_sublist).subperm
  by_cases helement : n.kind = "jsx_element"
  · have holder : tagHolder? n = n.field? "open_tag" := by simp [tagHolder?, helement]
    cases hopen : n.field? "open_tag" with
    | none =>
      rw [attributesOf_of_no_holder (holder.trans hopen), append_nil]
      exact content.trans (.of_subperm filter_sublist.subperm)
    | some tag =>
      -- The opening tag, with the attributes in it, is one of the children that are no content.
      refine (content.append (apart_attributes (holder.trans hopen))).trans (.of_subperm ?_)
      have mem : tag ∈ n.children.filter (!isContent ·) :=
        mem_filter.2 ⟨mem_of_find?_eq_some hopen, by simp [not_isContent_holder hopen]⟩
      exact ((subperm_append_left _).2 (singleton_subperm_iff.2 mem)).trans
        (filter_append_perm _ _).subperm
  · have holder : tagHolder? n = none := by simp [tagHolder?, hself, helement]
    rw [attributesOf_of_no_holder holder, append_nil]
    exact content.trans (.of_subperm filter_sublist.subperm)

/-- The kinds of content that building goes into. -/
theorem kind_of_childSite {c m : Node} (h : childSite? c = some m) :
    isContent c = true ∧ (c.kind = "jsx_expression" ∨ c.isJsx = true) := by
  unfold childSite? at h
  split at h
  · rename_i hcontent
    refine ⟨hcontent, ?_⟩
    split at h
    · rename_i hkind
      exact .inl (eq_of_beq hkind)
    · split at h
      · exact .inr ‹_›
      · cases h
  · cases h

theorem mem_namedChildren_of_isContent {c n : Node} (hc : c ∈ n.children)
    (h : isContent c = true) : c ∈ n.namedChildren := by
  refine mem_filter.2 ⟨hc, ?_⟩
  simp only [isContent, Bool.and_eq_true, Bool.not_eq_true'] at h
  simp_all

/-- Of an element with an expression alone between its tags, only that is built as content. -/
theorem site_of_onlyChild {n e c m : Node} (honly : onlyChildExpression? src n = some e)
    (hc : c ∈ n.children) (hsite : childSite? c = some m) : expressionSite? e = some m := by
  obtain ⟨only, -, hkind, hinner, -, others⟩ := onlyChildExpression_mem honly
  obtain ⟨hcontent, hkinds⟩ := kind_of_childSite hsite
  have hsame : c = only := by
    by_contra hne
    have := others c (mem_namedChildren_of_isContent hc hcontent) hne
    rcases hkinds with hkind' | hjsx
    · simp [hkind'] at this
    · rcases this with hkind' | hkind' | hkind' <;> simp [isJsx, jsxKinds, hkind'] at hjsx
  subst hsame
  simpa [childSite?, hcontent, hkind, hinner] using hsite

theorem builtContent_of_only {n e r : Node} (honly : onlyChildExpression? src n = some e)
    (hr : r ∈ builtContent n) : expressionSite? e = some r := by
  unfold builtContent at hr
  split at hr
  · cases hr
  · obtain ⟨c, hc, hsite⟩ := mem_flatMap.1 hr
    exact site_of_onlyChild honly hc (Option.mem_toList.1 hsite)

/-- A render function between tags is not built as content. -/
theorem builtContent_of_function {n e v : Node} (honly : onlyChildExpression? src n = some e)
    (hv : e.bare? = some v) (hfunction : v.isFunction = true) : builtContent n = [] := by
  refine eq_nil_iff_forall_not_mem.2 fun r hr => ?_
  have site := builtContent_of_only honly hr
  rw [expressionSite?, hv, Option.filter_some, hfunction] at site
  cases site

/-- The attributes of an element and a render function between its tags stand apart. -/
theorem apart_attributes_function {n e v : Node} (honly : onlyChildExpression? src n = some e)
    (hv : e.bare? = some v) (hfunction : v.isFunction = true) :
    Apart (attributesOf n ++ [v]) n.children := by
  obtain ⟨only, hmem, hkind, hinner, helement, -⟩ := onlyChildExpression_mem honly
  have inOnly : Apart [v] [only] :=
    (Apart.bare hv).trans (.of_mem_preorder (innerExpression_mem_preorder hinner))
  have honlyChild := namedChildren_subset hmem
  have holder : tagHolder? n = n.field? "open_tag" := by simp [tagHolder?, helement]
  cases hopen : n.field? "open_tag" with
  | none =>
    rw [attributesOf_of_no_holder (holder.trans hopen), nil_append]
    exact inOnly.trans (.of_subperm (singleton_subperm_iff.2 honlyChild))
  | some tag =>
    have htag := holder.trans hopen
    by_cases hne : tag = only
    · -- The expression is the first child of the opening tag; its attributes are other children.
      subst hne
      have hfirst : tag.firstNamed? = some e := by
        rwa [innerExpression?, if_pos (by simp [hkind])] at hinner
      have notAttribute : e ∉ attributesOf n := by
        intro he
        rw [attributesOf, htag] at he
        have hkinds := (mem_filter.1 he).2
        have self : e.bare? = some e := by
          rw [bare?]
          rcases (by simpa using hkinds : _ ∨ _) with h | h
          all_goals split <;> simp [isAssertion, h]
        rw [self] at hv
        cases hv
        rcases (by simpa using hkinds : _ ∨ _) with h | h
        all_goals simp [isFunction, functionKinds, h] at hfunction
      have children : attributesOf n ++ [e] <+~ tag.children := by
        rw [attributesOf, htag] at notAttribute ⊢
        refine Subperm.trans ?_ (filter_sublist (l := tag.children)
          (p := fun c => c.isNamed && c.kind != "comment")).subperm
        have first : e ∈ tag.namedChildren.filter fun c =>
            !(c.kind == "jsx_attribute" || c.kind == "jsx_expression" && c.field != some "name") :=
          mem_filter.2 ⟨mem_of_head? hfirst, by
            simpa [mem_of_head? hfirst, imp_iff_not_or] using notAttribute⟩
        exact ((subperm_append_left _).2 (singleton_subperm_iff.2 first)).trans
          (filter_append_perm _ _).subperm
      refine (((Apart.refl _).append (Apart.bare hv)).trans (.of_children children)).trans ?_
      exact .of_subperm (singleton_subperm_iff.2 (mem_of_find?_eq_some hopen))
    · -- The opening tag and the expression are different children.
      refine ((apart_attributes htag).append inOnly).trans (.of_subperm ?_)
      refine subperm_of_subset (by simp [hne]) fun x hx => ?_
      rcases mem_cons.1 hx with rfl | hx
      · exact mem_of_find?_eq_some hopen
      · rw [mem_singleton.1 hx]
        exact honlyChild

/-- Parts of the children have sites of the node. -/
theorem subperm_sites_of_children {n : Node} {parts : List Node} (h : Apart parts n.children) :
    n :: parts.flatMap (sites src names) <+~ sites src names n := by
  rw [sites_eq]
  exact (subperm_cons _).2 ((h _ (gathers_sites src names)).trans
    (sublist_append_left _ _).subperm)

/-- What is built of a component instance stands apart, but for content that is built twice, and
that is listed twice. -/
theorem subperm_sites_of_component {n : Node} {name : String}
    (hsort : sortOf src names n = .component name) :
    (builtContent n ++ attributesOf n
        ++ ((onlyChildExpression? src n).bind passedSite?).toList).flatMap (sites src names)
      <+~ sites src names n := by
  have whenApart {parts : List Node} (h : Apart parts n.children) :
      parts.flatMap (sites src names) <+~ sites src names n :=
    (sublist_cons_self _ _).subperm.trans (subperm_sites_of_children h)
  cases honly : onlyChildExpression? src n with
  | none => simpa using whenApart (apart_parts n)
  | some e =>
    rw [Option.bind_some, passedSite?]
    cases hv : e.bare? with
    | none => simpa using whenApart (apart_parts n)
    | some v =>
      cases hjsx : v.isJsx with
      | true =>
        -- The expression is built as content and as what is handed over, and is listed twice.
        have again : repeated? src names n = some e := by
          simp [repeated?, hsort, honly, hv, hjsx]
        rw [Option.filter_some, hjsx, if_pos (by simp), flatMap_append, sites_eq, again]
        refine ((apart_parts n _ (gathers_sites src names)).append ?_).trans
          (sublist_cons_self _ _).subperm
        exact (Apart.bare hv) _ (gathers_sites src names)
      | false =>
        cases hfunction : v.isFunction with
        | true =>
          rw [Option.filter_some, hjsx, hfunction, if_pos (by simp),
            builtContent_of_function honly hv hfunction, nil_append]
          exact whenApart (apart_attributes_function honly hv hfunction)
        | false =>
          rw [Option.filter_some, hjsx, hfunction]
          simpa using whenApart (apart_parts n)

end Sveltify.Render
