import Sveltify.Proofs.Step
import Sveltify.Proofs.Syntax.Tree
import Sveltify.Render.Builder

namespace Sveltify.Render

open Text Scope Node

/-!
# Where the parts of expressions stand

What a reading of an expression yields is a node of the expression.

* `innerExpression_mem_preorder`, `onlyReturn_mem_preorder`, `mapCallback_mem_preorder`,
  `callbackBody_mem_preorder`, `attribute_mem_preorder`, `key_mem_preorder` and the like: where it
  stands;
* `parameterNames`: the names that the functions of a tree receive.
-/

variable {src : Source} {n m : Node}

/-- The first named child is a node of the tree. -/
theorem firstNamed_mem_preorder (h : n.firstNamed? = some m) : m ∈ n.preorder :=
  child_mem_preorder (namedChildren_subset (List.mem_of_head? h)) (mem_preorder_self n)

/-- The expression between braces is a node of its parent. -/
theorem innerExpression_mem_preorder (h : innerExpression? n = some m) : m ∈ n.preorder := by
  unfold innerExpression? at h
  split at h
  · exact firstNamed_mem_preorder h
  · cases h
    exact mem_preorder_self _

/-- The one value that a function returns is a node of it. -/
theorem onlyReturn_mem_preorder (h : onlyReturn? n = some m) : m ∈ n.preorder := by
  unfold onlyReturn? at h
  split at h
  · cases h
  · rename_i body hbody
    have inside : body ∈ n.preorder := field_mem_preorder hbody (mem_preorder_self n)
    split at h
    · split at h
      · rename_i only honly
        split at h
        · have hchild : only ∈ body.children := namedChildren_subset (by simp [honly])
          exact preorder_trans (firstNamed_mem_preorder h) (child_mem_preorder hchild inside)
        · cases h
      · cases h
    · cases h
      exact inside

/-- The expression of the markup that a declarator or a function declares. -/
def snippetBody? (n : Node) : Option Node :=
  if n.isFunction then onlyReturn? n
  else
    ((n.field? "value").bind bare?).bind fun value =>
      if value.isJsx then some value else onlyReturn? value

/-- The body of a snippet is a node of it. -/
theorem snippetBody_mem_preorder (h : snippetBody? n = some m) : m ∈ n.preorder := by
  unfold snippetBody? at h
  split at h
  · exact onlyReturn_mem_preorder h
  · obtain ⟨v, hv, hbody⟩ := Option.bind_eq_some_iff.1 h
    obtain ⟨value, hvalue, hbare⟩ := Option.bind_eq_some_iff.1 hv
    have inside : v ∈ n.preorder :=
      preorder_trans (bare_mem_preorder hbare) (field_mem_preorder hvalue (mem_preorder_self n))
    split at hbody
    · cases hbody
      exact inside
    · exact preorder_trans (onlyReturn_mem_preorder hbody) inside

/-- The list and the callback of a call of `map` are the object of its callee and its first
argument. -/
theorem exists_call_of_mappedList {iterable : Option Node}
    (h : mappedList? src n = some (iterable, m)) :
    ∃ f arguments, n.field? "function" = some f ∧ n.field? "arguments" = some arguments ∧
      f.field? "object" = iterable ∧ arguments.firstNamed? = some m := by
  unfold mappedList? at h
  split at h
  · split at h
    · cases h
    · rename_i f hf
      split at h
      · split at h
        · cases h
        · rename_i arguments harguments
          obtain ⟨callback, hcallback, hm⟩ := Option.map_eq_some_iff.1 h
          cases hm
          exact ⟨f, arguments, hf, harguments, rfl, hcallback⟩
      · cases h
  · cases h

/-- The callback of a list is a node of the call. -/
theorem mapCallback_mem_preorder {iterable : Option Node}
    (h : mappedList? src n = some (iterable, m)) : m ∈ n.preorder := by
  obtain ⟨f, arguments, -, harguments, -, hcallback⟩ := exists_call_of_mappedList h
  exact preorder_trans (firstNamed_mem_preorder hcallback)
    (field_mem_preorder harguments (mem_preorder_self n))

/-- What the list goes through is a node of the call. -/
theorem mapIterable_mem_preorder {iterable : Option Node} {list : Node}
    (h : mappedList? src n = some (iterable, m)) (hlist : iterable = some list) :
    list ∈ n.preorder := by
  obtain ⟨f, arguments, hf, -, hobject, -⟩ := exists_call_of_mappedList h
  exact field_mem_preorder (hobject.trans hlist) (field_mem_preorder hf (mem_preorder_self n))

/-- The returned value stands in one of the statements. -/
theorem callbackParts_mem {statements declarations : List Node} {returned : Node}
    (h : callbackParts statements = some (declarations, some returned)) :
    ∃ s ∈ statements, returned ∈ s.preorder := by
  induction statements generalizing declarations with
  | nil => simp [callbackParts] at h
  | cons s rest ih =>
    rw [callbackParts] at h
    split at h
    · obtain ⟨parts, hparts, heq⟩ := Option.map_eq_some_iff.1 h
      obtain ⟨ds, r⟩ := parts
      cases heq
      obtain ⟨t, ht, hmem⟩ := ih hparts
      exact ⟨t, List.mem_cons_of_mem _ ht, hmem⟩
    · split at h
      · simp only [Option.some.injEq, Prod.mk.injEq] at h
        exact ⟨s, List.mem_cons_self, firstNamed_mem_preorder h.2⟩
      · cases h

/-- What a callback returns is a node of it. -/
theorem callbackBody_mem_preorder {declarations : List Node}
    (h : callbackBody n = some (declarations, some m)) : m ∈ n.preorder := by
  unfold callbackBody at h
  split at h
  · cases h
  · rename_i body hbody
    have inside : body ∈ n.preorder := field_mem_preorder hbody (mem_preorder_self n)
    split at h
    · obtain ⟨s, hs, hmem⟩ := callbackParts_mem h
      exact preorder_trans hmem (child_mem_preorder (namedChildren_subset hs) inside)
    · cases h
      exact inside

/-- The declarations of a callback are statements of it. -/
theorem declarations_subset {statements declarations : List Node} {returned : Option Node}
    (h : callbackParts statements = some (declarations, returned)) : declarations ⊆ statements := by
  induction statements generalizing declarations with
  | nil =>
    cases h
    exact List.nil_subset _
  | cons s rest ih =>
    rw [callbackParts] at h
    split at h
    · obtain ⟨parts, hparts, heq⟩ := Option.map_eq_some_iff.1 h
      obtain ⟨ds, r⟩ := parts
      cases heq
      exact List.cons_subset_cons s (ih hparts)
    · split at h
      · cases h
        exact List.nil_subset _
      · cases h

/-- They are nodes of the callback. -/
theorem declaration_mem_preorder {declarations : List Node} {returned : Option Node}
    (h : callbackBody n = some (declarations, returned)) (hm : m ∈ declarations) :
    m ∈ n.preorder := by
  unfold callbackBody at h
  split at h
  · cases h
    cases hm
  · rename_i body hbody
    split at h
    · exact child_mem_preorder (namedChildren_subset (declarations_subset h hm))
        (field_mem_preorder hbody (mem_preorder_self n))
    · cases h
      cases hm

/-! ### Attributes and arguments -/

/-- The attributes of an element are nodes of it. -/
theorem attribute_mem_preorder (h : m ∈ attributesOf n) : m ∈ n.preorder := by
  unfold attributesOf at h
  split at h
  · cases h
  · rename_i holder hholder
    have inside : holder ∈ n.preorder := by
      unfold tagHolder? at hholder
      split at hholder
      · cases hholder
        exact mem_preorder_self _
      · split at hholder
        · exact field_mem_preorder hholder (mem_preorder_self n)
        · cases hholder
    exact child_mem_preorder (namedChildren_subset (List.mem_filter.1 h).1) inside

/-- The value of an attribute is a node of it. -/
theorem attributeValue_mem_preorder (h : attributeValue? n = some m) : m ∈ n.preorder :=
  child_mem_preorder (namedChildren_subset (List.mem_of_getElem? h)) (mem_preorder_self n)

/-- A value that is spread is a node of the attribute. -/
theorem spreadAttribute_mem_preorder {a : Attribute} (h : spreadAttribute? n = some a)
    (hm : a.value = some m) : m ∈ n.preorder := by
  unfold spreadAttribute? at h
  split at h
  · rename_i inner hinner
    split at h
    · cases h
      cases hm
      refine preorder_trans ?_ (innerExpression_mem_preorder hinner)
      cases hfirst : inner.firstNamed? with
      | none => simpa [spreadArgument, hfirst] using mem_preorder_self inner
      | some first => simpa [spreadArgument, hfirst] using firstNamed_mem_preorder hfirst
    · cases h
  · cases h

/-- An attribute that is found by name is one of those given. -/
theorem findAttribute_mem {name : String} {attributes : List Node}
    (h : findAttribute? src name attributes = .ok (some m)) : m ∈ attributes := by
  induction attributes with
  | nil => cases h
  | cons a rest ih =>
    rw [findAttribute?] at h
    obtain ⟨isNamed, -, h'⟩ := except_bind_ok_iff.1 h
    cases isNamed with
    | true =>
      cases h'
      exact List.mem_cons_self
    | false => exact List.mem_cons_of_mem _ (ih h')

/-- The key of an item is a node of it. -/
theorem key_mem_preorder (h : keyOf? src n = .ok (some m)) : m ∈ n.preorder := by
  obtain ⟨element, hneed, hfound⟩ := except_bind_ok_iff.1 h
  obtain ⟨found, hfind, hkey⟩ := except_bind_ok_iff.1 hfound
  cases found with
  | none => cases hkey
  | some attr =>
    obtain ⟨raw, hraw, hinner⟩ := Option.bind_eq_some_iff.1 (Except.ok.inj hkey)
    have inAttribute := preorder_trans (innerExpression_mem_preorder hinner)
      (attributeValue_mem_preorder hraw)
    have inElement := attribute_mem_preorder (findAttribute_mem hfind)
    exact preorder_trans (preorder_trans inAttribute inElement)
      (bare_mem_preorder (except_need_ok_iff.1 hneed))

/-- Markup given as a string is a node of the element. -/
theorem html_mem_preorder (h : innerHtml? src n = .ok (some m)) : m ∈ n.preorder := by
  obtain ⟨object, hneed, hvalue⟩ := except_bind_ok_iff.1 h
  dsimp only at hvalue
  split at hvalue
  · obtain ⟨pair, hpair, hfield⟩ := Option.bind_eq_some_iff.1 (Except.ok.inj hvalue)
    have inObject : pair ∈ object.preorder :=
      child_mem_preorder (namedChildren_subset (List.mem_of_find?_eq_some hpair))
        (mem_preorder_self object)
    exact preorder_trans (field_mem_preorder hfield inObject)
      (bare_mem_preorder (except_need_ok_iff.1 hneed))
  · cases hvalue

/-- The arguments of a call are nodes of it. -/
theorem argument_mem_preorder_of_call {call : Node × List Node}
    (h : calleeAndArguments n = some call) (hm : m ∈ call.2) : m ∈ n.preorder := by
  unfold calleeAndArguments at h
  split at h
  · obtain ⟨callee, -, rfl⟩ := Option.map_eq_some_iff.1 h
    cases harguments : n.field? "arguments" with
    | none => simp [harguments] at hm
    | some arguments =>
      simp only [harguments, Option.map_some, Option.getD_some] at hm
      exact child_mem_preorder (namedChildren_subset hm)
        (field_mem_preorder harguments (mem_preorder_self n))
  · cases h
    cases hm

/-! ### Parameters -/

/-- The parameters of a function that is handed over. -/
def slotParameters (f : Node) : Option Node := (f.field? "parameters").or (f.field? "parameter")

/-- The names that the functions of a tree receive as parameters. -/
def parameterNames (src : Source) (n : Node) : List String :=
  (n.preorder.filter isFunction).flatMap fun f => boundNamesOf src (slotParameters f)

/-- The parameters of a function inside a node are names of the node. -/
theorem boundNames_slotParameters_subset {f : Node} (hf : f.isFunction = true)
    (h : f ∈ n.preorder) : boundNamesOf src (slotParameters f) ⊆ parameterNames src n :=
  fun _ hx => List.mem_flatMap.2 ⟨f, List.mem_filter.2 ⟨h, hf⟩, hx⟩

end Sveltify.Render
