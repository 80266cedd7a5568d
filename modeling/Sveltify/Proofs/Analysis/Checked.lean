import Sveltify.Proofs.Analysis.Collected

namespace Sveltify.Analysis

open Text Scope Component Render Node List

/-!
# The expressions of a component that are checked

The names of a component are looked up in the expressions of its derived values, its effects and its
render trees. What these trees hold is told here from the source.

* `TreeCarries`: the tree of a value has the expressions that the value carries;
* `carries_assemble`: early returns add their conditions, and nothing else is added or lost;
* `IsChecked`: the expressions of a component that are checked;
* `Stages.checked_sound`, `Stages.checked_full`: these are the ones that the model lists, each with
  names around it that are declared in the function.
-/

variable {src : Source} {names : Names} {f : Node}

/-! ### Early returns -/

/-- The tree of a value has the expressions that the value carries, with names around them that are
declared in the function. -/
abbrev TreeCarries (src : Source) (names : Names) (f : Node) (value : Option Node)
    (r : Option RenderNode) : Prop :=
  Carries (CarriedBy src names value.toList) (declaredIn src f) fun bound =>
    usedExpressionsOptional src bound r

/-- A value that may be missing. -/
theorem carries_buildOptional {value : Option Node} (h : ∀ v ∈ value.toList, v ∈ f.preorder) :
    Yields (TreeCarries src names f value) (buildOptional src names false value) := by
  intro p r q hrun
  have uses := uses_buildOptional (fun c _ => uses_cases.ofExpression false c)
    (fun c hc => h c (Option.mem_toList.2 hc)) hrun
  exact uses.2

/-- A branch of an early return is built with its condition and the tree of its value. -/
def BranchCarries (src : Source) (names : Names) (f : Node) (b : Option Node × Option Node)
    (built : Option Node × Option RenderNode) : Prop :=
  built.1 = b.1 ∧ TreeCarries src names f b.2 built.2

/-- A chain of early returns is built branch by branch. -/
structure ChainCarries (src : Source) (names : Names) (f : Node) (c : ReturnChain)
    (built : BuiltChain) : Prop where
  branches : Forall₂ (BranchCarries src names f) c.branches built.branches
  isTerminal : built.isTerminal = c.isTerminal
  last : c.isTerminal = true → TreeCarries src names f c.elseValue built.elseValue

/-- A chain carries what its values carry. -/
theorem carries_buildChain {c : ReturnChain} (h : ∀ v ∈ c.values, v ∈ f.preorder) :
    Yields (ChainCarries src names f c) (buildChain src names c) := by
  have branch : ∀ b ∈ c.branches, Yields (BranchCarries src names f b)
      (do return (b.1, ← buildOptional src names false b.2) :
        Build (Option Node × Option RenderNode)) := by
    intro b hb
    have inside : ∀ v ∈ b.2.toList, v ∈ f.preorder := fun v hv =>
      h v (mem_append_left _ (mem_filterMap.2 ⟨b, hb, Option.mem_toList.1 hv⟩))
    exact (carries_buildOptional inside).andThen fun r carries => .pure ⟨rfl, carries⟩
  unfold buildChain
  refine (Yields.mapM branch).andThen fun branches hbranches => ?_
  dsimp only
  split
  · -- Only a chain that ends the body builds a value for its `else`.
    rename_i hterminal
    have inside : ∀ v ∈ c.elseValue.toList, v ∈ f.preorder := fun v hv =>
      h v (mem_append_right _ (by rwa [if_pos hterminal]))
    exact (carries_buildOptional inside).andThen fun r carries =>
      .pure ⟨hbranches, rfl, fun _ => carries⟩
  · rename_i hterminal
    exact .bind fun r => .pure ⟨hbranches, rfl, fun h => absurd h hterminal⟩

/-- A chain adds its conditions to what its values and the rest carry. -/
theorem carries_chainTree {branches : List (Option Node × Option Node)}
    {built : List (Option Node × Option RenderNode)}
    (h : Forall₂ (BranchCarries src names f) branches built) {S : Node → Prop}
    {rest : Option RenderNode}
    (hrest : Carries S (declaredIn src f) fun bound => usedExpressionsOptional src bound rest) :
    Carries (fun e => (e ∈ branches.filterMap (·.1) ∨
        CarriedBy src names (branches.filterMap (·.2)) e) ∨ S e)
      (declaredIn src f) fun bound => usedExpressionsOptional src bound (chainTree built rest) := by
  induction h with
  | nil => exact hrest.mono (by simp) (Subset.refl _)
  | @cons b b' bs bs' hb _ ih =>
    have all := (Carries.own (declaredIn src f) b.1.toList).append (hb.2.append ih)
    have unfolded : chainTree (b' :: bs') rest =
        some (.conditional b'.1 (b'.2.getD .nothing) (chainTree bs' rest)) := rfl
    refine (all.mono (fun e => ?_) (Subset.refl _)).congr fun bound => ?_
    · rw [filterMap_cons_toList, filterMap_cons_toList, mem_append, carriedBy_append]
      grind
    · rw [unfolded, hb.1]
      simp [usedExpressionsOptional, usedExpressions, usedExpressions_getD_nothing]

/-- The conditions of a chain of early returns. -/
def ReturnChain.conditions (c : ReturnChain) : List Node := c.branches.filterMap (·.1)

/-- The tree of early returns and a final value has the conditions, and what the values carry.
Nothing is lost, since nothing comes behind a chain that returns in any case. -/
theorem carries_assemble {chains : List ReturnChain} {built : List BuiltChain}
    {final : Option Node} {last : Option RenderNode} (hsettled : Settled chains final)
    (hbuilt : Forall₂ (ChainCarries src names f) chains built)
    (hlast : TreeCarries src names f final last) :
    Carries (fun e => e ∈ chains.flatMap ReturnChain.conditions ∨
        CarriedBy src names (valuesOf (chains, final)) e)
      (declaredIn src f) fun bound => usedExpressionsOptional src bound (assemble built last) := by
  induction hbuilt with
  | nil => exact hlast.mono (by simp [valuesOf]) (Subset.refl _)
  | @cons c b cs bs hc hcs ih =>
    have unfolded : assemble (b :: bs) last =
        chainTree b.branches (if b.isTerminal then b.elseValue else assemble bs last) := rfl
    rw [unfolded, hc.isTerminal]
    cases hterminal : c.isTerminal with
    | true =>
      -- One of the branches returns, so there is neither a later chain nor a final value.
      simp only [Settled, hterminal] at hsettled
      obtain ⟨rfl, hfinal⟩ := hsettled
      refine (carries_chainTree hc.branches (hc.last hterminal)).mono (fun e => ?_) (Subset.refl _)
      simp only [valuesOf, ReturnChain.values, ReturnChain.conditions, hterminal, hfinal,
        flatMap_cons, flatMap_nil, append_nil, Option.toList_none, carriedBy_append, if_true]
      exact or_assoc.symm
    | false =>
      have rest := ih (by simpa [Settled, hterminal] using hsettled)
      refine (carries_chainTree hc.branches rest).mono (fun e => ?_) (Subset.refl _)
      simp only [valuesOf, ReturnChain.values, ReturnChain.conditions, hterminal, flatMap_cons,
        append_nil, append_assoc, carriedBy_append, mem_append, Bool.false_eq_true, if_false]
      grind

/-! ### All pieces -/

/-- A snippet is built as it is declared, and its tree has the expressions that its body carries. -/
def SnippetCarries (src : Source) (names : Names) (s : SnippetSource) (built : Snippet) : Prop :=
  SnippetBuilt s built ∧ Carries (Carried src names s.body) (declaredIn src s.body) fun bound =>
    usedExpressions src bound built.body

/-- All trees carry what their values carry. -/
theorem carries_buildTrees {read : ComponentBody} (hsettled : Settled read.returns read.final)
    (h : ∀ v ∈ valuesOf (read.returns, read.final), v ∈ f.preorder) :
    Yields (fun trees => Forall₂ (SnippetCarries src names) read.body.snippets trees.1 ∧
        Carries (fun e => e ∈ read.returns.flatMap ReturnChain.conditions ∨
            CarriedBy src names (valuesOf (read.returns, read.final)) e)
          (declaredIn src f) fun bound => usedExpressionsOptional src bound trees.2)
      (buildTrees src names read) := by
  have snippet : ∀ s ∈ read.body.snippets, Yields (SnippetCarries src names s) (do
      let body ← buildExpression src names false s.body
      return { name := s.name, node := s.node, body := body.getD .nothing,
               parameters := s.parameters }) := by
    intro s _
    refine (uses_buildExpression false s.body).andThen fun r carries => .pure ?_
    exact ⟨⟨rfl, rfl, rfl⟩, carries.congr fun bound => usedExpressions_getD_nothing bound r⟩
  have chain : ∀ c ∈ read.returns, Yields (ChainCarries src names f c) (buildChain src names c) :=
    fun c hc => carries_buildChain fun v hv =>
      h v (mem_append_left _ (mem_flatMap.2 ⟨c, hc, hv⟩))
  have final : ∀ v ∈ read.final.toList, v ∈ f.preorder := fun v hv => h v (mem_append_right _ hv)
  unfold buildTrees
  refine (Yields.mapM snippet).andThen fun snippets hsnippets => ?_
  refine (Yields.mapM chain).andThen fun chains hchains => ?_
  refine (carries_buildOptional final).andThen fun last hlast => .pure ⟨hsnippets, ?_⟩
  exact carries_assemble hsettled hchains hlast

/-! ### The expressions of a model -/

/-- The conditions of the early returns of a function. -/
def returnConditions (f : Node) : List Node :=
  (functionEnds f).1.flatMap ReturnChain.conditions

theorem conditions_cons (c : ReturnChain) (condition value : Option Node) :
    ReturnChain.conditions { c with branches := (condition, value) :: c.branches }
      = condition.toList ++ c.conditions := by
  cases condition <;> simp [ReturnChain.conditions]

/-- The conditions of a chain stand in it. -/
theorem condition_mem_preorder {n e : Node} {chain : ReturnChain}
    (h : returnChain? n = some chain) (he : e ∈ chain.conditions) : e ∈ n.preorder := by
  have first {p : Node} (hp : e ∈ (p.field? "condition").toList) : e ∈ p.preorder :=
    field_mem_preorder (Option.mem_toList.1 hp) (mem_preorder_self p)
  fun_induction returnChain? n generalizing chain with
  | case1 => cases h
  | case2 n _ value hvalue hnone =>
    cases h
    rw [conditions_cons ⟨[], false, none⟩] at he
    exact first (by simpa [ReturnChain.conditions] using he)
  | case3 => cases h
  | case4 n _ value hvalue branch alternative halternative inner hinner =>
    rename_i ih
    obtain ⟨tail, htail, rfl⟩ := Option.map_eq_some_iff.1 h
    rw [conditions_cons tail] at he
    rcases mem_append.1 he with he | he
    · exact first he
    · have inside := child_mem_preorder (namedChildren_subset (mem_of_head? hinner))
        (field_mem_preorder halternative (mem_preorder_self n))
      -- The other conditions stand in the `if` statement behind `else`.
      exact preorder_trans (ih htail he) inside
  | case5 n _ value hvalue branch alternative halternative inner hinner =>
    obtain ⟨last, hlast, rfl⟩ := Option.map_eq_some_iff.1 h
    rw [conditions_cons ⟨[], true, last⟩] at he
    exact first (by simpa [ReturnChain.conditions] using he)
  | case6 => cases h

theorem condition_of_endsOf {statements : List Node} {e : Node}
    (he : e ∈ (endsOf statements).1.flatMap ReturnChain.conditions) :
    ∃ s ∈ statements, e ∈ s.preorder := by
  induction statements with
  | nil => cases he
  | cons s rest ih =>
    have behind (hrest : e ∈ (endsOf rest).1.flatMap ReturnChain.conditions) :
        ∃ s' ∈ s :: rest, e ∈ s'.preorder := by
      obtain ⟨s', hs', hmem⟩ := ih hrest
      exact ⟨s', mem_cons_of_mem _ hs', hmem⟩
    rw [endsOf] at he
    split at he
    · cases he
    · split at he
      · rename_i chain hchain
        split at he
        · rw [flatMap_singleton] at he
          exact ⟨s, mem_cons_self, condition_mem_preorder hchain he⟩
        · rw [flatMap_cons] at he
          rcases mem_append.1 he with he | he
          · exact ⟨s, mem_cons_self, condition_mem_preorder hchain he⟩
          · exact behind he
      · exact behind he

/-- Those of a function stand in it. -/
theorem returnCondition_mem_preorder {f e : Node} (he : e ∈ returnConditions f) :
    e ∈ f.preorder := by
  unfold returnConditions functionEnds at he
  split at he
  · rename_i block hblock
    split at he
    · obtain ⟨s, hs, hmem⟩ := condition_of_endsOf he
      exact preorder_trans hmem (child_mem_preorder (namedChildren_subset hs)
        (field_mem_preorder hblock (mem_preorder_self f)))
    · cases he
  · cases he

/-- The expression is one whose names are looked up: that of a derived value, the callback of an
effect, the condition of an early return, or one that a piece of the component carries. -/
def IsChecked (src : Source) (model : Model) (e : Node) : Prop :=
  (∃ d ∈ model.derived.values, d.expression = e) ∨ (∃ effect ∈ model.effects, effect.callback = e) ∨
    e ∈ returnConditions model.node ∨ CarriedBy src (modelNames model) (modelPieces model) e

namespace Stages

variable {m : Module} {o : Options} {reports reports' : List Report} {model : Model}
  {choice : Choice} {top : ModuleLevel} {read : ComponentBody} {found : Progress}

/-- What is read stands in the component. -/
theorem inside_function (h : Stages m o reports model reports' choice top read found) {n : Node}
    (hn : n ∈ functionPlaces choice.chosen.function ++ returnedValues choice.chosen.function) :
    n ∈ model.node.preorder := by
  obtain ⟨f, hf, hn⟩ := (apart_ends choice.chosen.function).mem_preorder hn
  rwa [mem_singleton.1 hf, ← h.node] at hn

/-- What is checked stands in the function. -/
theorem checked_mem_preorder (h : Stages m o reports model reports' choice top read found)
    {e : Node} (he : IsChecked m.source model e) : e ∈ model.node.preorder := by
  have place {n : Node} (hn : n ∈ functionPlaces choice.chosen.function) (hmem : e ∈ n.preorder) :=
    preorder_trans hmem (h.inside_function (mem_append_left _ hn))
  rcases he with ⟨d, hd, rfl⟩ | ⟨effect, heffect, rfl⟩ | hcondition | ⟨v, hv, hcarried⟩
  · rw [h.derived] at hd
    obtain ⟨n, hn, hmem⟩ := h.reading.sourced.derived d hd
    exact place hn hmem
  · rw [h.effects] at heffect
    obtain ⟨n, hn, hmem⟩ := h.reading.sourced.effects effect heffect
    exact place hn hmem
  · exact returnCondition_mem_preorder hcondition
  · rw [← h.pieces_eq] at hv
    obtain ⟨f, hf, hmem⟩ := h.reading.apart_pieces.mem_preorder hv
    rw [mem_singleton.1 hf, ← h.node] at hmem
    exact preorder_trans (mem_preorder_of_carried hcarried) hmem

/-- The trees of a model have the expressions that its pieces carry. -/
theorem carries (h : Stages m o reports model reports' choice top read found) :
    (∀ s ∈ model.snippets, ∃ body, snippetBody? s.node = some body ∧
      boundNamesOf m.source s.parameters ⊆ declaredIn m.source model.node ∧
      Carries (Carried m.source (modelNames model) body) (declaredIn m.source model.node)
        fun bound => usedExpressions m.source bound s.body) ∧
    Carries (fun e => e ∈ returnConditions model.node ∨
        CarriedBy m.source (modelNames model) (returnedValues model.node) e)
      (declaredIn m.source model.node) fun bound =>
        usedExpressionsOptional m.source bound model.renderTree := by
  have ends := h.reading.ends
  have values : ∀ v ∈ valuesOf (read.returns, read.final), v ∈ model.node.preorder := by
    rw [ends]
    exact fun v hv => h.inside_function (mem_append_right _ hv)
  obtain ⟨snippets, returned⟩ := carries_buildTrees h.settled values h.building
  rw [h.names_eq h.snippets] at snippets returned
  refine ⟨fun s hs => ?_, ?_⟩
  · have declared := (forall₂_and_left _ _).2 ⟨h.reading.sourced.snippets, snippets⟩
    obtain ⟨source, -, standing, ⟨-, hnode, hparameters⟩, carries⟩ :=
      (exists_of_forall₂ declared).2 s hs
    obtain ⟨hplace, -, hbody, hbound⟩ := standing
    have place := h.inside_function (mem_append_left _ hplace)
    have body := preorder_trans (snippetBody_mem_preorder hbody) place
    refine ⟨source.body, hnode ▸ hbody, ?_,
      carries.mono (fun _ => Iff.rfl) (declaredIn_subset body)⟩
    rw [hparameters]
    exact Subset.trans hbound (Subset.trans (subset_append_right _ _) (declaredIn_subset place))
  · have returns : read.returns = (functionEnds choice.chosen.function).1 := congrArg Prod.fst ends
    rw [ends, returns, ← h.node] at returned
    exact returned

/-- The names around an expression that a model lists are declared in the function. -/
theorem checked_sound (h : Stages m o reports model reports' choice top read found)
    {u : Node × List String} (hu : u ∈ checkedExpressions m.source model) :
    IsChecked m.source model u.1 ∧ u.2 ⊆ declaredIn m.source model.node := by
  obtain ⟨snippets, returned⟩ := h.carries
  simp only [checkedExpressions, mem_append, or_assoc] at hu
  -- What is checked stems from derived values, effects, snippets and what is returned.
  rcases hu with hu | hu | hu | hu
  · obtain ⟨d, hd, rfl⟩ := mem_map.1 hu
    exact ⟨.inl ⟨d, hd, rfl⟩, nil_subset _⟩
  · obtain ⟨effect, heffect, rfl⟩ := mem_map.1 hu
    exact ⟨.inr (.inl ⟨effect, heffect, rfl⟩), nil_subset _⟩
  · obtain ⟨s, hs, hu⟩ := mem_flatMap.1 hu
    obtain ⟨body, hbody, hparameters, carries⟩ := snippets s hs
    obtain ⟨hcarried, hbound⟩ := carries.sound _ u hu
    have piece : body ∈ modelPieces model :=
      mem_append_left _ (mem_filterMap.2 ⟨s, hs, hbody⟩)
    refine ⟨.inr (.inr (.inr ⟨body, piece, hcarried⟩)), Subset.trans hbound ?_⟩
    exact append_subset.2 ⟨hparameters, Subset.refl _⟩
  · obtain ⟨hcarried, hbound⟩ := returned.sound _ u hu
    refine ⟨.inr (.inr (hcarried.imp_right fun ⟨v, hv, hcarried⟩ => ?_)), hbound⟩
    exact ⟨v, mem_append_right _ hv, hcarried⟩

/-- Every expression that is to be checked is listed by the model. -/
theorem checked_full (h : Stages m o reports model reports' choice top read found) {e : Node}
    (he : IsChecked m.source model e) : ∃ u ∈ checkedExpressions m.source model, u.1 = e := by
  obtain ⟨snippets, returned⟩ := h.carries
  simp only [checkedExpressions, mem_append, or_assoc]
  rcases he with ⟨d, hd, rfl⟩ | ⟨effect, heffect, rfl⟩ | htree
  · exact ⟨_, .inl (mem_map_of_mem hd), rfl⟩
  · exact ⟨_, .inr (.inl (mem_map_of_mem heffect)), rfl⟩
  rw [modelPieces, carriedBy_append, or_left_comm] at htree
  rcases htree with ⟨v, hv, hcarried⟩ | hreturned
  · obtain ⟨s, hs, hbody⟩ := mem_filterMap.1 hv
    obtain ⟨body, hbody', -, carries⟩ := snippets s hs
    obtain rfl : v = body := Option.some.inj (hbody.symm.trans hbody')
    obtain ⟨u, hu, heq⟩ := carries.full (boundNamesOf m.source s.parameters) e hcarried
    exact ⟨u, .inr (.inr (.inl (mem_flatMap.2 ⟨s, hs, hu⟩))), heq⟩
  · obtain ⟨u, hu, heq⟩ := returned.full [] e hreturned
    exact ⟨u, .inr (.inr (.inr hu)), heq⟩

end Stages

end Sveltify.Analysis
