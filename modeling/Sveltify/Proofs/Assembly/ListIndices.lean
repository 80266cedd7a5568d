import Mathlib.Data.List.Perm.Subperm
import Sveltify.Proofs.Assembly.Patterns
import Sveltify.Proofs.Assembly.Placeholders
import Sveltify.Proofs.Text

namespace Sveltify.Assembly

open Analysis Component Scope Svelte
open Render (ElementHead InstanceHead ListHead RenderNode Snippet SlotContent)

/-!
# Invented indices

A list without keys is keyed by its index, and the index gets a name if it has none. The name
differs from the names of the component and from those that the list itself binds. It may still be
used for something else, if the items of the list use a name from around the list, say the index of
an outer list.

* `indexCandidate`, `IsFirstFree`: the names that are tried, and the one that is found;
* `nodeLists`, `markupEaches`: the lists of a render tree, and the blocks for lists in markup;
* `renders_nodeMarkup`: each block is made for a list of the tree;
* `invented_indices`: an invented index is the first candidate that is not taken. So the items of
  the list use it just if they use that candidate;
* `outer_index_captured`: a list whose items use the index of a list around it.
-/

variable {src : Source} {model : Model} {taken : List String}

/-! ### The search for a name -/

/-- The names that are tried for an index, in order: the usual ones, then the numbered ones. -/
def indexCandidate (k : Nat) : String :=
  usualIndices[k]?.getD (numberedIndex (k - usualIndices.length))

/-- The usual names are tried first. -/
theorem indexCandidate_usual {k : Nat} (h : k < usualIndices.length) :
    indexCandidate k = usualIndices[k] := by
  rw [indexCandidate, List.getElem?_eq_getElem h, Option.getD_some]

/-- Then come the numbered ones. -/
theorem indexCandidate_numbered (k : Nat) :
    indexCandidate (usualIndices.length + k) = numberedIndex k := by
  rw [indexCandidate, List.getElem?_eq_none (by omega), Option.getD_none, Nat.add_sub_cancel_left]

/-- No two numbered names are the same. -/
theorem numberedIndex_injective : Function.Injective numberedIndex := by
  intro k l h
  have := @Text.numbered_injective "i" (k + 1) (l + 1) (by simpa [numberedIndex] using h)
  omega

/-- The candidate is the first that is not taken. -/
structure IsFirstFree (taken : List String) (k : Nat) : Prop where
  free : indexCandidate k ∉ taken
  before : ∀ j < k, indexCandidate j ∈ taken

/-- There is one first free candidate. -/
theorem IsFirstFree.unique {k l : Nat} (h : IsFirstFree taken k) (h' : IsFirstFree taken l) :
    k = l := by
  rcases Nat.lt_trichotomy k l with hlt | rfl | hlt
  · exact absurd (h'.before k hlt) h.free
  · rfl
  · exact absurd (h.before l hlt) h'.free

/-- Among one more numbered names than there are names taken, one is free. -/
theorem exists_numberedIndex_free (taken : List String) :
    ∃ k < taken.length + 1, numberedIndex k ∉ taken := by
  by_contra hnone
  -- Otherwise all these names, which are distinct, are found in a list with fewer entries.
  have all : (List.range (taken.length + 1)).map numberedIndex ⊆ taken := by
    intro name hname
    obtain ⟨k, hk, rfl⟩ := List.mem_map.1 hname
    by_contra hfree
    exact hnone ⟨k, List.mem_range.1 hk, hfree⟩
  have := ((List.nodup_range.map numberedIndex_injective).subperm all).length_le
  rw [List.length_map, List.length_range] at this
  omega

/-- The search finds the first candidate that is not taken. -/
theorem exists_isFirstFree (taken : List String) :
    ∃ k, IsFirstFree taken k ∧ freshIndex taken = indexCandidate k := by
  unfold freshIndex
  cases husual : usualIndices.find? fun name => !taken.contains name with
  | some name =>
    obtain ⟨hfree, k, hk, rfl, hbefore⟩ := List.find?_eq_some_iff_getElem.1 husual
    refine ⟨k, ⟨?_, fun j hj => ?_⟩, (indexCandidate_usual hk).symm⟩
    · rw [indexCandidate_usual hk]
      simpa using hfree
    · rw [indexCandidate_usual (Nat.lt_trans hj hk)]
      simpa using hbefore j hj
  | none =>
    have usual {j : Nat} (hj : j < usualIndices.length) : indexCandidate j ∈ taken := by
      rw [indexCandidate_usual hj]
      simpa using List.find?_eq_none.1 husual _ (List.getElem_mem hj)
    dsimp only
    -- The usual names are all taken, so the first free candidate is a numbered one.
    cases hnumber : (List.range (taken.length + 1)).find? fun k =>
        !taken.contains (numberedIndex k) with
    | some k =>
      obtain ⟨hfree, -, hbefore⟩ := List.find?_range_eq_some.1 hnumber
      refine ⟨usualIndices.length + k, ⟨?_, fun j hj => ?_⟩, (indexCandidate_numbered k).symm⟩
      · rw [indexCandidate_numbered]
        simpa using hfree
      · rcases Nat.lt_or_ge j usualIndices.length with hlt | hge
        · exact usual hlt
        · obtain ⟨l, rfl⟩ := Nat.exists_eq_add_of_le hge
          rw [indexCandidate_numbered]
          simpa using hbefore l (by omega)
    | none =>
      -- The search goes far enough to come upon a free name.
      obtain ⟨k, hk, hfree⟩ := exists_numberedIndex_free taken
      have := List.find?_eq_none.1 hnumber k (List.mem_range.2 hk)
      simp [hfree] at this

/-! ### Lists and the blocks for them -/

mutual

/-- The lists in a piece of a render tree, each with the markup of its items. -/
def nodeLists : RenderNode → List (ListHead × RenderNode)
  | .fragment children => nodesLists children
  | .element _ children => nodesLists children
  | .component _ slots => slotsLists slots
  | .conditional _ consequent alternate => nodeLists consequent ++ alternateLists alternate
  | .list h body => (h, body) :: nodeLists body
  | _ => []

/-- The lists in several pieces. -/
def nodesLists : List RenderNode → List (ListHead × RenderNode)
  | [] => []
  | n :: rest => nodeLists n ++ nodesLists rest

/-- The lists in an optional piece. -/
def alternateLists : Option RenderNode → List (ListHead × RenderNode)
  | none => []
  | some n => nodeLists n

/-- The lists in the markup handed to a component instance. -/
def slotsLists : List SlotContent → List (ListHead × RenderNode)
  | [] => []
  | .mk _ _ body :: rest => nodeLists body ++ slotsLists rest

end

/-- The lists of a component, at any depth of its snippets and its render tree. -/
def modelLists (model : Model) : List (ListHead × RenderNode) :=
  model.snippets.flatMap (fun s => nodeLists s.body) ++ alternateLists model.renderTree

/-- What a block for a list binds and how it tells items apart. -/
structure EachHead where
  item : String
  index : Option String
  key : Option String
deriving Repr, DecidableEq

mutual

/-- The blocks for lists in a piece of markup. -/
def templateEaches : TemplateNode → List EachHead
  | .element _ _ children _ => markupEaches children
  | .component _ _ children => markupEaches children
  | .conditional branches none => branchesEaches branches
  | .conditional branches (some otherwise) => branchesEaches branches ++ markupEaches otherwise
  | .each _ item index key children => ⟨item, index, key⟩ :: markupEaches children
  | .snippet _ _ children => markupEaches children
  | _ => []

/-- The blocks for lists in markup. -/
def markupEaches : List TemplateNode → List EachHead
  | [] => []
  | n :: rest => templateEaches n ++ markupEaches rest

/-- The blocks for lists in the branches of a condition. -/
def branchesEaches : List IfBranch → List EachHead
  | [] => []
  | .mk _ children :: rest => markupEaches children ++ branchesEaches rest

end

theorem markupEaches_append (as bs : List TemplateNode) :
    markupEaches (as ++ bs) = markupEaches as ++ markupEaches bs := by
  induction as with
  | nil => rfl
  | cons n as ih => rw [List.cons_append, markupEaches, ih, markupEaches, List.append_assoc]

theorem markupEaches_singleton (n : TemplateNode) : markupEaches [n] = templateEaches n := by
  rw [markupEaches, markupEaches, List.append_nil]

/-- Constants hold no list. -/
theorem markupEaches_constants {γ : Type} {l : List γ} {ns : List TemplateNode}
    (h : List.Forall₂ (fun _ n => ∃ text, n = .constant text) l ns) : markupEaches ns = [] := by
  induction h with
  | nil => rfl
  | cons hn _ ih =>
    obtain ⟨text, rfl⟩ := hn
    exact ih

/-- Nor do placeholders. -/
theorem IsBare.markupEaches {ns : List TemplateNode} (h : IsBare ns) : markupEaches ns = [] := by
  induction ns with
  | nil => rfl
  | cons n ns ih =>
    obtain ⟨⟨p, rfl⟩, hrest⟩ := List.forall_mem_cons.1 h
    exact ih hrest

/-- The blocks for lists in the branches of a condition, and where none of them holds. -/
def alternateEaches : List IfBranch × Option (List TemplateNode) → List EachHead
  | (branches, otherwise) => branchesEaches branches ++ (otherwise.map markupEaches).getD []

/-- A block holds the lists of its branches. -/
theorem templateEaches_conditional (branches : List IfBranch)
    (otherwise : Option (List TemplateNode)) :
    templateEaches (.conditional branches otherwise) = alternateEaches (branches, otherwise) := by
  cases otherwise with
  | none => simp [templateEaches, alternateEaches]
  | some ns => rfl

theorem alternateEaches_cons (shown : String) (content : List TemplateNode)
    (branches : List IfBranch) (otherwise : Option (List TemplateNode)) :
    alternateEaches (.mk shown content :: branches, otherwise) =
      markupEaches content ++ alternateEaches (branches, otherwise) := by
  simp [alternateEaches, branchesEaches]

/-! ### Blocks are made for lists -/

/-- The block is one for a list. A list without keys is keyed by its index, for which a name is
invented if there is none. -/
structure EachOf (src : Source) (model : Model) (l : ListHead × RenderNode) (e : EachHead) :
    Prop where
  item : e.item = (l.1.item.map src.text).getD "_"
  keyed : l.1.key ≠ none → e.index = l.1.index
  keyless : l.1.key = none →
    e.index = some (l.1.index.getD (indexFor src model l.1)) ∧ e.key = e.index

/-- The blocks are made for lists among `ls`, in the same order. There is one for each of them,
unless something is left behind. -/
structure Renders (src : Source) (model : Model) (ls : List (ListHead × RenderNode))
    (es : List EachHead) (left : List Leftover) : Prop where
  exists_made : ∃ made, made.Sublist ls ∧ (left = [] → made = ls) ∧
    List.Forall₂ (EachOf src model) made es

namespace Renders

variable {ls ls' : List (ListHead × RenderNode)} {es es' : List EachHead}
  {left left' : List Leftover}

/-- No lists, no blocks. -/
theorem nil (left : List Leftover) : Renders src model [] [] left :=
  ⟨[], .refl _, fun _ => rfl, .nil⟩

/-- Where something is left over, blocks may be missing. -/
theorem of_left (h : left ≠ []) : Renders src model ls [] left :=
  ⟨[], List.nil_sublist _, fun hleft => absurd hleft h, .nil⟩

/-- Two parts side by side. -/
theorem append (h : Renders src model ls es left) (h' : Renders src model ls' es' left') :
    Renders src model (ls ++ ls') (es ++ es') (left ++ left') := by
  obtain ⟨made, hsub, hwhole, hmade⟩ := h
  obtain ⟨made', hsub', hwhole', hmade'⟩ := h'
  refine ⟨made ++ made', hsub.append hsub', fun hleft => ?_, List.rel_append hmade hmade'⟩
  obtain ⟨hl, hl'⟩ := List.append_eq_nil_iff.1 hleft
  rw [hwhole hl, hwhole' hl']

/-- One list and its block more. -/
theorem cons {l : ListHead × RenderNode} {e : EachHead} (he : EachOf src model l e)
    (h : Renders src model ls es left) : Renders src model (l :: ls) (e :: es) left := by
  have one : Renders src model [l] [e] [] := ⟨[l], .refl _, fun _ => rfl, .cons he .nil⟩
  exact one.append h

end Renders

/-- The blocks in markup are made for lists among `ls`. -/
def RendersAll (src : Source) (model : Model) (ls : List (ListHead × RenderNode))
    (ns : List TemplateNode) : Prop :=
  Renders src model ls (markupEaches ns) (markupLeftovers ns)

variable {ls ls' : List (ListHead × RenderNode)} {ns ns' : List TemplateNode}

theorem RendersAll.append (h : RendersAll src model ls ns) (h' : RendersAll src model ls' ns') :
    RendersAll src model (ls ++ ls') (ns ++ ns') := by
  unfold RendersAll
  rw [markupEaches_append, markupLeftovers_append]
  exact Renders.append h h'

/-- Markup without blocks. -/
theorem RendersAll.of_nil (h : markupEaches ns = []) : RendersAll src model [] ns := by
  unfold RendersAll
  rw [h]
  exact .nil _

theorem rendersAll_singleton {n : TemplateNode} :
    RendersAll src model ls [n] ↔
      Renders src model ls (templateEaches n) (templateLeftovers n) := by
  unfold RendersAll
  rw [markupEaches_singleton, markupLeftovers, markupLeftovers, List.append_nil]

/-- A placeholder stands for all the lists in it. -/
theorem renders_orPlaceholder {anchor : Option Node} {build : Assembling (List TemplateNode)}
    (h : Yields (RendersAll src model ls) build) :
    Yields (RendersAll src model ls) (orPlaceholder src anchor build) := by
  refine yields_orElse h fun r => ?_
  cases anchor with
  | none => exact .throw _
  | some n =>
    refine .bind fun _ => .pure (rendersAll_singleton.2 (.of_left ?_))
    simp [templateLeftovers]

section Content

variable {content : Assembling (List TemplateNode)}

/-- An element has the lists of its content. -/
theorem renders_elementMarkup (h : ElementHead)
    (hcontent : Yields (RendersAll src model ls) content) :
    Yields (RendersAll src model ls) (elementMarkup src model h content) := by
  refine (yields_elementAttributes h).andThen fun a ha => ?_
  refine hcontent.andThen fun children hchildren => .pure ?_
  exact (RendersAll.of_nil ha.markupEaches).append (rendersAll_singleton.2 hchildren)

/-- So has a component. -/
theorem renders_instanceMarkup (h : InstanceHead)
    (hcontent : Yields (RendersAll src model ls) content) :
    Yields (RendersAll src model ls) (instanceMarkup src model h content) := by
  refine .bind fun _ => (yields_foldAttributes h.props).andThen fun a ha => ?_
  refine hcontent.andThen fun children hchildren => .pure ?_
  exact (RendersAll.of_nil ha.markupEaches).append (rendersAll_singleton.2 hchildren)

/-- How items are told apart. -/
theorem yields_listKey (l : ListHead × RenderNode) (item : String)
    (hitem : item = (l.1.item.map src.text).getD "_") :
    Yields (fun made => EachOf src model l ⟨item, made.1, some made.2⟩)
      (listKey src model l.1) := by
  unfold listKey
  cases hkey : l.1.key with
  | some key => exact .bind fun _ => .pure ⟨hitem, fun _ => rfl, fun h => by simp [hkey] at h⟩
  | none => exact .bind fun _ => .pure ⟨hitem, fun h => absurd hkey h, fun _ => ⟨rfl, rfl⟩⟩

/-- A list becomes one block in front of those inside it. -/
theorem renders_listMarkup (h : ListHead) (body : RenderNode)
    (hcontent : Yields (RendersAll src model ls) content) :
    Yields (RendersAll src model ((h, body) :: ls)) (listMarkup src model h content) := by
  have constant (d : Node) : Yields (fun n => ∃ text, n = TemplateNode.constant text)
      (do return TemplateNode.constant (← converted src model d)) :=
    .bind fun text => .pure ⟨text, rfl⟩
  -- The declarations for each item hold no blocks; those of the content are the ones further in.
  refine (yields_listKey (h, body) _ rfl).andThen fun made hmade => ?_
  refine (Yields.mapM fun d _ => constant d).andThen fun constants hconstants => ?_
  refine hcontent.andThen fun children hchildren => .bind fun _ => .pure ?_
  have inner : RendersAll src model ls (constants ++ children) :=
    (RendersAll.of_nil (markupEaches_constants hconstants)).append hchildren
  exact rendersAll_singleton.2 (inner.cons hmade)

/-- A slot has the lists of its body. -/
theorem rendersAll_handedMarkup (name : String) (parameters : Option Node)
    (h : RendersAll src model ls ns) :
    RendersAll src model ls (handedMarkup src name parameters ns) := by
  unfold handedMarkup
  split
  · exact h
  · exact rendersAll_singleton.2 h

end Content

/-- The blocks of a condition are made for lists among `ls`. -/
def RendersAlternate (src : Source) (model : Model) (ls : List (ListHead × RenderNode))
    (made : List IfBranch × Option (List TemplateNode)) : Prop :=
  Renders src model ls (alternateEaches made) (alternateKept made)

/-- One branch more. -/
theorem RendersAlternate.cons {made : List IfBranch × Option (List TemplateNode)} (shown : String)
    (h : RendersAll src model ls ns) (h' : RendersAlternate src model ls' made) :
    RendersAlternate src model (ls ++ ls') (.mk shown ns :: made.1, made.2) := by
  unfold RendersAlternate
  rw [alternateEaches_cons, alternateKept_cons]
  exact Renders.append h h'

/-- Branches shown as a block. -/
theorem RendersAlternate.conditional {made : List IfBranch × Option (List TemplateNode)}
    (h : RendersAlternate src model ls made) :
    RendersAll src model ls [.conditional made.1 made.2] := by
  rw [rendersAll_singleton, templateEaches_conditional, templateLeftovers_conditional]
  exact h

mutual

/-- The blocks in the markup of a piece of a render tree are made for the lists in the piece. -/
theorem renders_nodeMarkup (n : RenderNode) :
    Yields (RendersAll src model (nodeLists n)) (nodeMarkup src model n) := by
  -- A list adds its own block; all other pieces have the blocks of their content.
  cases n with
  | fragment children =>
    rw [nodeMarkup, nodeLists]
    exact renders_nodesMarkup children
  | text value =>
    rw [nodeMarkup]
    exact .pure (.of_nil rfl)
  | unsupported n reason construct =>
    rw [nodeMarkup]
    exact .bind fun _ => .pure (.of_nil rfl)
  | expression e =>
    rw [nodeMarkup]
    refine renders_orPlaceholder ?_
    unfold valueMarkup
    split
    · exact .pure (.of_nil rfl)
    · exact .bind fun _ => .pure (.of_nil rfl)
  | rawHtml e =>
    rw [nodeMarkup]
    exact renders_orPlaceholder (.bind fun _ => .pure (.of_nil rfl))
  | element h children =>
    rw [nodeMarkup, nodeLists]
    exact renders_orPlaceholder (renders_elementMarkup h (renders_nodesMarkup children))
  | component h slots =>
    rw [nodeMarkup, nodeLists]
    exact renders_orPlaceholder (renders_instanceMarkup h (renders_slotsMarkup slots))
  | conditional condition consequent alternate =>
    rw [nodeMarkup, nodeLists]
    refine renders_orPlaceholder (.bind fun shown => ?_)
    refine (renders_nodeMarkup consequent).andThen fun content hcontent => ?_
    refine (renders_alternateMarkup alternate).andThen fun made hmade => .pure ?_
    exact (hmade.cons shown hcontent).conditional
  | list h body =>
    rw [nodeMarkup, nodeLists]
    exact renders_orPlaceholder (renders_listMarkup h body (renders_nodeMarkup body))
  | slot name callee arguments isOptional =>
    rw [nodeMarkup]
    exact renders_orPlaceholder (.bind fun _ => .pure (.of_nil rfl))

/-- So it is for nodes in a row. -/
theorem renders_nodesMarkup (ns : List RenderNode) :
    Yields (RendersAll src model (nodesLists ns)) (nodesMarkup src model ns) := by
  cases ns with
  | nil =>
    rw [nodesMarkup]
    exact .pure (.of_nil rfl)
  | cons n rest =>
    rw [nodesMarkup, nodesLists]
    refine (renders_nodeMarkup n).andThen fun first hfirst => ?_
    exact (renders_nodesMarkup rest).andThen fun others hothers => .pure (hfirst.append hothers)

/-- So it is for branches. -/
theorem renders_alternateMarkup (alternate : Option RenderNode) :
    Yields (RendersAlternate src model (alternateLists alternate))
      (alternateMarkup src model alternate) := by
  cases alternate with
  | none =>
    rw [alternateMarkup]
    exact .pure (.nil _)
  | some n =>
    cases n with
    -- A condition where none holds goes on with branches of its own.
    | conditional condition consequent alternate =>
      rw [alternateMarkup, alternateLists, nodeLists]
      refine .bind fun shown => ?_
      refine (renders_nodeMarkup consequent).andThen fun content hcontent => ?_
      exact (renders_alternateMarkup alternate).andThen fun made hmade =>
        .pure (hmade.cons shown hcontent)
    | _ =>
      rw [alternateMarkup, alternateLists]
      · exact (renders_nodeMarkup _).andThen fun content hcontent => .pure hcontent
      all_goals simp

/-- So it is for slots. -/
theorem renders_slotsMarkup (slots : List SlotContent) :
    Yields (RendersAll src model (slotsLists slots)) (slotsMarkup src model slots) := by
  cases slots with
  | nil =>
    rw [slotsMarkup]
    exact .pure (.of_nil rfl)
  | cons slot rest =>
    cases slot with
    | mk name parameters body =>
      rw [slotsMarkup, slotsLists]
      refine (renders_nodeMarkup body).andThen fun content hcontent => ?_
      refine (renders_slotsMarkup rest).andThen fun others hothers => .pure ?_
      exact (rendersAll_handedMarkup name parameters hcontent).append hothers

end

/-- So it is for a tree that may be missing. -/
theorem renders_optionalMarkup (r : Option RenderNode) :
    Yields (RendersAll src model (alternateLists r)) (optionalMarkup src model r) := by
  cases r with
  | none => exact .pure (.of_nil rfl)
  | some n => exact renders_nodeMarkup n

/-- So it is for snippets. -/
theorem rendersAll_snippets {snippets : List Snippet}
    (h : List.Forall₂ (fun s n => RendersAll src model (nodeLists s.body) [n]) snippets ns) :
    RendersAll src model (snippets.flatMap fun s => nodeLists s.body) ns := by
  induction h with
  | nil => exact .of_nil rfl
  | cons hn _ ih => exact hn.append ih

/-- The blocks of a component are made for its lists. -/
theorem rendersAll_template {indent : String} {reports reports' : List Report}
    {c : SvelteComponent} (h : toSvelte src model indent reports = .ok c reports') :
    RendersAll src model (modelLists model) c.template := by
  have snippet (s : Snippet) : Yields (fun n => RendersAll src model (nodeLists s.body) [n])
      (snippetMarkup src model s) :=
    (renders_nodeMarkup s.body).andThen fun body hbody => .pure (rendersAll_singleton.2 hbody)
  obtain ⟨snippets, markup, hsnippets, hmarkup, htemplate⟩ :=
    exists_template snippet (renders_optionalMarkup model.renderTree) h
  rw [htemplate]
  exact (rendersAll_snippets hsnippets).append hmarkup

/-! ### Invented indices -/

/-- The names that the index of a list does not get: those of the component, those of the item and
those declared for each item. -/
def takenNames (src : Source) (model : Model) (h : ListHead) : List String :=
  reservedNames model ++ boundNamesOf src h.item ++ h.declarations.flatMap (bindingsWithin src)

/-- The names that are used in the declarations for each item and in the markup of the items. -/
def blockNames (src : Source) (l : ListHead × RenderNode) : List String :=
  (l.1.declarations ++ (usedExpressions src [] l.2).map Prod.fst).flatMap (namesUsed src)

/-- **Invented indices.** A list with neither keys nor an index gets as its index the first
candidate that is not taken. So the items use that name for something else just if they use the
candidate, and they do not if each candidate among the names they use is taken. The blocks of every
component that is assembled are keyed that way. -/
theorem invented_indices (src : Source) (model : Model) :
    (∀ l ∈ modelLists model, l.1.key = none → l.1.index = none →
      (∃ k, IsFirstFree (takenNames src model l.1) k ∧
        indexFor src model l.1 = indexCandidate k) ∧
      (indexFor src model l.1 ∈ blockNames src l ↔
        ∃ k, IsFirstFree (takenNames src model l.1) k ∧ indexCandidate k ∈ blockNames src l) ∧
      ((∀ k, indexCandidate k ∈ blockNames src l →
          indexCandidate k ∈ takenNames src model l.1) →
        indexFor src model l.1 ∉ blockNames src l)) ∧
    ∀ indent reports c reports', toSvelte src model indent reports = .ok c reports' →
      RendersAll src model (modelLists model) c.template := by
  refine ⟨fun l _ _ _ => ?_, fun _ _ _ _ h => rendersAll_template h⟩
  obtain ⟨k, hk, hindex⟩ : ∃ k, IsFirstFree (takenNames src model l.1) k ∧
      indexFor src model l.1 = indexCandidate k := exists_isFirstFree _
  refine ⟨⟨k, hk, hindex⟩, ⟨fun hused => ⟨k, hk, hindex ▸ hused⟩, ?_⟩, fun hall hused => ?_⟩
  · rintro ⟨j, hj, hused⟩
    rw [hindex, hk.unique hj]
    exact hused
  · exact hk.free (hall k (hindex ▸ hused))

section Sample

open Node

/-- The call `xs.map(callback)` where `xs` has the given length. -/
def mapCall (start length : Nat) (callback : Node) (field : Option String) : Node :=
  plain "call_expression" start (callback.stop + 1)
    [plain "member_expression" start (start + length + 4)
      [plain "identifier" start (start + length) [] (some "object"),
       plain "property_identifier" (start + length + 1) (start + length + 4) []
        (some "property")] (some "function"),
     plain "arguments" (start + length + 4) (callback.stop + 1) [callback] (some "arguments")]
    field

/-- The function `x => <p>{i}{x}</p>`. -/
def itemFunction (start : Nat) : Node :=
  plain "arrow_function" start (start + 18)
    [plain "identifier" start (start + 1) [] (some "parameter"),
     plain "jsx_element" (start + 5) (start + 18)
      [plain "jsx_opening_element" (start + 5) (start + 8)
        [plain "identifier" (start + 6) (start + 7) [] (some "name")] (some "open_tag"),
       plain "jsx_expression" (start + 8) (start + 11)
        [plain "identifier" (start + 9) (start + 10) []],
       plain "jsx_expression" (start + 11) (start + 14)
        [plain "identifier" (start + 12) (start + 13) []],
       plain "jsx_closing_element" (start + 14) (start + 18)
        [plain "identifier" (start + 16) (start + 17) [] (some "name")] (some "close_tag")]
      (some "body")]

/-- A component with a prop `i` that the items of a list show. -/
def propIndexModule : Module :=
  appModule ("function App(\x7b xs, i \x7d) \x7b "
      ++ "return xs.map(x => <p>\x7bi\x7d\x7bx\x7d</p>); \x7d")
    [plain "formal_parameters" 12 23 [plain "object_pattern" 13 22
      [plain "shorthand_property_identifier_pattern" 15 17 [],
       plain "shorthand_property_identifier_pattern" 19 20 []]] (some "parameters")] 24
    [plain "return_statement" 26 60 [mapCall 33 2 (itemFunction 40) none]]

/-- The index of the list is not the prop. -/
theorem invented_indices_of_prop : ∃ model reports c reports',
    analyze propIndexModule {} [] = .ok model reports ∧
    toSvelte propIndexModule.source model "  " reports = .ok c reports' ∧
    RendersAll propIndexModule.source model (modelLists model) c.template ∧
    ∃ l ∈ modelLists model, l.1.key = none ∧ l.1.index = none ∧
      blockNames propIndexModule.source l = ["i", "x"] ∧
      indexFor propIndexModule.source model l.1 ∉ blockNames propIndexModule.source l := by
  have test : endsIn (analyze propIndexModule {}) [] (fun model reports =>
      endsIn (toSvelte propIndexModule.source model "  ") reports (fun _ _ =>
        (modelLists model).any fun l => l.1.key.isNone && l.1.index.isNone &&
          takenNames propIndexModule.source model l.1 == ["xs", "i", "x"] &&
          blockNames propIndexModule.source l == ["i", "x"])) = true := by
    decide +kernel
  obtain ⟨model, reports, hmodel, hassembled⟩ := exists_ok_of_endsIn test
  obtain ⟨c, reports', hc, hany⟩ := exists_ok_of_endsIn hassembled
  obtain ⟨l, hl, hchecked⟩ := List.any_eq_true.1 hany
  simp only [Bool.and_eq_true, beq_iff_eq, Option.isNone_iff_eq_none] at hchecked
  obtain ⟨⟨⟨hkey, hindex⟩, htaken⟩, hused⟩ := hchecked
  obtain ⟨hlists, hruns⟩ := invented_indices propIndexModule.source model
  have within (k : Nat) (hk : indexCandidate k ∈ blockNames propIndexModule.source l) :
      indexCandidate k ∈ takenNames propIndexModule.source model l.1 := by
    rw [hused] at hk
    rw [htaken]
    exact List.mem_cons_of_mem _ hk
  exact ⟨model, reports, c, reports', hmodel, hc, hruns _ _ _ _ hc, l, hl, hkey, hindex, hused,
    (hlists l hl hkey hindex).2.2 within⟩

/-- A component with a list in a list. The items of the inner list show the index of the outer. -/
def outerIndexModule : Module :=
  appModule ("function App(\x7b rows \x7d) \x7b "
      ++ "return rows.map((row, i) => row.map(x => <p>\x7bi\x7d\x7bx\x7d</p>)); \x7d")
    [plain "formal_parameters" 12 22 [plain "object_pattern" 13 21
      [plain "shorthand_property_identifier_pattern" 15 19 []]] (some "parameters")] 23
    [plain "return_statement" 25 82 [mapCall 32 4
      (plain "arrow_function" 41 80
        [plain "formal_parameters" 41 49
          [plain "identifier" 42 45 [], plain "identifier" 47 48 []] (some "parameters"),
         mapCall 53 3 (itemFunction 61) (some "body")]) none]]

/-- The inner list is given an index of the same name, which is what its items show. -/
theorem outer_index_captured : ∃ model reports c reports',
    analyze outerIndexModule {} [] = .ok model reports ∧
    toSvelte outerIndexModule.source model "  " reports = .ok c reports' ∧
    markupEaches c.template = [⟨"row", some "i", some "i"⟩, ⟨"x", some "i", some "i"⟩] ∧
    ∃ l ∈ modelLists model, l.1.key = none ∧ l.1.index = none ∧
      indexFor outerIndexModule.source model l.1 = "i" ∧
      "i" ∈ blockNames outerIndexModule.source l := by
  have test : endsIn (analyze outerIndexModule {}) [] (fun model reports =>
      endsIn (toSvelte outerIndexModule.source model "  ") reports (fun c _ =>
        markupEaches c.template = [⟨"row", some "i", some "i"⟩, ⟨"x", some "i", some "i"⟩] &&
          (modelLists model).any fun l => l.1.key.isNone && l.1.index.isNone &&
            indexFor outerIndexModule.source model l.1 == "i" &&
            (blockNames outerIndexModule.source l).contains "i")) = true := by
    decide +kernel
  obtain ⟨model, reports, hmodel, hassembled⟩ := exists_ok_of_endsIn test
  obtain ⟨c, reports', hc, hchecked⟩ := exists_ok_of_endsIn hassembled
  obtain ⟨heaches, hany⟩ := Bool.and_eq_true_iff.1 hchecked
  obtain ⟨l, hl, hchecked⟩ := List.any_eq_true.1 hany
  simp only [Bool.and_eq_true, beq_iff_eq, Option.isNone_iff_eq_none, List.contains_iff_mem]
    at hchecked
  obtain ⟨⟨⟨hkey, hindex⟩, hname⟩, hused⟩ := hchecked
  exact ⟨model, reports, c, reports', hmodel, hc, of_decide_eq_true heaches, l, hl, hkey, hindex,
    hname, hused⟩

end Sample

end Sveltify.Assembly
