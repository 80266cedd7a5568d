import Sveltify.Proofs.Analysis.Pieces
import Sveltify.Proofs.Render.Recorded

namespace Sveltify.Analysis

open Text Scope Component Render Node List

/-!
# What a model collects

The refs, the providers and the styles of a model are written down while its pieces are built.

* `Parts`: the accounts of several pieces, one after another;
* `parts_buildTrees`: the account of all pieces of a component. No element of a piece is lost when
  the trees of early returns are put together;
* `recorded_buildTrees`: every provider that the pieces show is written down;
* `Stages`: the stages of an analysis, and what the model takes from each;
* `Collects`: what the model of a component collects, in terms of what is found;
  `Stages.exists_findings`: every model does.
-/

variable {src : Source} {names : Names}

/-! ### Several pieces -/

/-- The accounts of several pieces, one after another. -/
inductive Parts (src : Source) (names : Names) : List Node → List ElementHead → List Finding → Prop
  | nil : Parts src names [] [] []
  | cons {v : Node} {vs : List Node} {held held' : List ElementHead} {fs fs' : List Finding}
      (first : Account src names (expressionSite? v).toList (plainIn src names v)
        (dropped src names v) held fs) (rest : Parts src names vs held' fs') :
      Parts src names (v :: vs) (held ++ held') (fs ++ fs')

namespace Parts

variable {vs vs' : List Node} {held held' : List ElementHead} {fs fs' : List Finding}

theorem append (h : Parts src names vs held fs) (h' : Parts src names vs' held' fs') :
    Parts src names (vs ++ vs') (held ++ held') (fs ++ fs') := by
  induction h with
  | nil => exact h'
  | cons first _ ih =>
    rw [cons_append, append_assoc, append_assoc]
    exact .cons first ih

/-- The pieces have one account together. -/
theorem account (h : Parts src names vs held fs) :
    Account src names (vs.flatMap fun v => (expressionSite? v).toList)
      (vs.flatMap (plainIn src names)) (vs.flatMap (dropped src names)) held fs := by
  induction h with
  | nil => exact Account.nil _ _
  | cons first _ ih => exact first.append ih

/-- The findings of the pieces, piece by piece. -/
theorem exists_split (h : Parts src names vs held fs) :
    ∃ groups : List (List Finding), fs = groups.flatten ∧
      Forall₂ (fun v group => (∀ f ∈ group, f.node ∈ v.preorder) ∧
        (group.filter Finding.isPlain).map Finding.node = plainIn src names v) vs groups := by
  induction h with
  | nil => exact ⟨[], rfl, .nil⟩
  | @cons v _ _ _ fs _ first _ ih =>
    obtain ⟨groups, rfl, hgroups⟩ := ih
    refine ⟨fs :: groups, rfl, .cons ⟨fun f hf => ?_, first.plain⟩ hgroups⟩
    obtain ⟨r, hr, hmem⟩ := first.mem_preorder hf
    have bare := (Option.filter_eq_some_iff.1 (Option.mem_toList.1 hr)).1
    exact preorder_trans hmem (bare_mem_preorder bare)

end Parts

/-- A value that may be missing. -/
theorem parts_buildOptional (value : Option Node) :
    Finds src (fun r fs => (value = none → r = none) ∧
        Parts src names value.toList (optionalElements r) fs)
      (buildOptional src names false value) := by
  cases value with
  | none => exact .pure ⟨fun _ => rfl, .nil⟩
  | some v =>
    refine (accounts_buildExpression false v).mono fun r fs account => ⟨by simp, ?_⟩
    simpa using Parts.cons account .nil

/-- Steps for the entries of a list, of each of which something is known. -/
theorem parts_mapM {α β : Type} {Q : β → α → Prop} {values : β → List Node}
    {held : α → List ElementHead} {f : β → Build α}
    (hf : ∀ b, Finds src (fun a fs => Q b a ∧ Parts src names (values b) (held a) fs) (f b))
    (l : List β) :
    Finds src (fun as fs => Forall₂ Q l as ∧ Parts src names (l.flatMap values) (as.flatMap held) fs)
      (l.mapM f) :=
  Finds.mapM (T := fun l as fs => Forall₂ Q l as ∧
      Parts src names (l.flatMap values) (as.flatMap held) fs) ⟨.nil, .nil⟩
    (fun first rest => ⟨.cons first.1 rest.1, first.2.append rest.2⟩) hf l

/-! ### Early returns -/

/-- The elements in the trees of a chain of early returns. -/
def chainElements (c : BuiltChain) : List ElementHead :=
  c.branches.flatMap (fun b => optionalElements b.2) ++ optionalElements c.elseValue

/-- A chain is built as one that returns in any case just if it is one. -/
def KeepsEnd (c : ReturnChain) (built : BuiltChain) : Prop :=
  built.isTerminal = c.isTerminal ∧ (c.isTerminal = false → built.elseValue = none)

/-- A chain collects from its values. -/
theorem parts_buildChain (c : ReturnChain) :
    Finds src (fun built fs => KeepsEnd c built ∧
        Parts src names c.values (chainElements built) fs) (buildChain src names c) := by
  have branch (b : Option Node × Option Node) :
      Finds src (fun r fs => True ∧ Parts src names b.2.toList (optionalElements r.2) fs)
        (do return (b.1, ← buildOptional src names false b.2) :
          Build (Option Node × Option RenderNode)) :=
    (parts_buildOptional b.2).bind fun r fs parts => .pure ⟨trivial, by simpa using parts.2⟩
  have values : c.branches.flatMap (fun b => b.2.toList) = c.branches.filterMap (·.2) :=
    (filterMap_eq_flatMap_toList ..).symm
  unfold buildChain
  refine (parts_mapM branch c.branches).bind fun branches fs parts => ?_
  have shown := parts.2
  rw [values] at shown
  dsimp only
  split
  · rename_i hterminal
    refine (parts_buildOptional c.elseValue).bind fun r fs' last => .pure ⟨⟨rfl, ?_⟩, ?_⟩
    · simp [hterminal]
    · simpa [ReturnChain.values, hterminal, chainElements] using shown.append last.2
  · rename_i hterminal
    refine .after (.pure none) (.pure rfl) fun r (hr : none = r) => ?_
    subst hr
    exact .pure ⟨⟨rfl, fun _ => rfl⟩, by
      simpa [ReturnChain.values, hterminal, chainElements] using shown⟩

/-- A tree of branches has their elements. -/
theorem elements_chainTree (branches : List (Option Node × Option RenderNode))
    (rest : Option RenderNode) :
    optionalElements (chainTree branches rest) =
      branches.flatMap (fun b => optionalElements b.2) ++ optionalElements rest := by
  induction branches with
  | nil => rfl
  | cons b bs ih =>
    have unfolded : chainTree (b :: bs) rest =
        some (.conditional b.1 (b.2.getD .nothing) (chainTree bs rest)) := rfl
    rw [unfolded, optionalElements_some, nodeElements, nodeElements_getD_nothing, ih, flatMap_cons,
      append_assoc]

/-- Nothing is dropped when the trees of early returns are put together, since nothing comes behind
a chain that returns in any case. -/
theorem elements_assemble {chains : List ReturnChain} {built : List BuiltChain}
    {final : Option Node} {last : Option RenderNode} (hsettled : Settled chains final)
    (hbuilt : Forall₂ KeepsEnd chains built) (hlast : final = none → last = none) :
    optionalElements (assemble built last) =
      built.flatMap chainElements ++ optionalElements last := by
  induction hbuilt with
  | nil => rfl
  | @cons c b cs bs hc hcs ih =>
    have unfolded : assemble (b :: bs) last =
        chainTree b.branches (if b.isTerminal then b.elseValue else assemble bs last) := rfl
    rw [unfolded, elements_chainTree, flatMap_cons, chainElements, hc.1]
    cases hterminal : c.isTerminal with
    | true =>
      -- The rest is not built into the tree, but there is none.
      simp only [Settled, hterminal] at hsettled
      obtain ⟨rfl, hfinal⟩ := hsettled
      cases hcs
      simp [hlast hfinal]
    | false =>
      have rest := ih (by simpa [Settled, hterminal] using hsettled)
      simp [hc.2 hterminal, rest]

/-! ### All pieces -/

/-- The elements in the trees of a component. -/
def treesElements (trees : List Snippet × Option RenderNode) : List ElementHead :=
  trees.1.flatMap (fun s => nodeElements s.body) ++ optionalElements trees.2

/-- The snippet is built with the name, the place and the parameters it is declared with. -/
def SnippetBuilt (s : SnippetSource) (built : Snippet) : Prop :=
  built.name = s.name ∧ built.node = s.node ∧ built.parameters = s.parameters

/-- Building the pieces of a component has an account, piece by piece. -/
theorem parts_buildTrees {read : ComponentBody} (hsettled : Settled read.returns read.final) :
    Finds src (fun trees fs => Forall₂ SnippetBuilt read.body.snippets trees.1 ∧
        Parts src names read.pieces (treesElements trees) fs) (buildTrees src names read) := by
  have snippet (s : SnippetSource) :
      Finds src (fun built fs => SnippetBuilt s built ∧
          Parts src names [s.body] (nodeElements built.body) fs) (do
        let body ← buildExpression src names false s.body
        return { name := s.name, node := s.node, body := body.getD .nothing,
                 parameters := s.parameters }) := by
    refine (accounts_buildExpression false s.body).bind fun r fs account => .pure ⟨?_, ?_⟩
    · exact ⟨rfl, rfl, rfl⟩
    · simpa using Parts.cons account .nil
  unfold buildTrees
  refine (parts_mapM snippet read.body.snippets).bind fun snippets fs first => ?_
  refine (parts_mapM parts_buildChain read.returns).bind fun chains fs' second => ?_
  refine (parts_buildOptional read.final).bind fun last fs'' third => .pure ⟨first.1, ?_⟩
  -- Snippets are built first, then the chains of returns, and the last value at the end.
  have all := first.2.append (second.2.append third.2)
  have bodies : read.body.snippets.flatMap (fun s => [s.body])
      = read.body.snippets.map (·.body) := (map_eq_flatMap ..).symm
  have returned := elements_assemble hsettled second.1 third.1
  rw [bodies] at all
  simpa [ComponentBody.pieces, valuesOf, treesElements, returned] using all

/-! ### Providers of all pieces -/

theorem recorded_buildOptional (value : Option Node) :
    Finds src (fun _ fs => Recorded src names value.toList fs)
      (buildOptional src names false value) :=
  records_buildOptional fun c _ => recorded_buildExpression false c

theorem recorded_mapM {α β : Type} {values : β → List Node} {f : β → Build α}
    (hf : ∀ b, Finds src (fun _ fs => Recorded src names (values b) fs) (f b)) (l : List β) :
    Finds src (fun _ fs => Recorded src names (l.flatMap values) fs) (l.mapM f) :=
  Finds.mapM (T := fun l _ fs => Recorded src names (l.flatMap values) fs) (.nil _)
    (fun first rest => first.append rest) hf l

/-- A chain records its values. -/
theorem recorded_buildChain (c : ReturnChain) :
    Finds src (fun _ fs => Recorded src names c.values fs) (buildChain src names c) := by
  have branch (b : Option Node × Option Node) :
      Finds src (fun _ fs => Recorded src names b.2.toList fs)
        (do return (b.1, ← buildOptional src names false b.2) :
          Build (Option Node × Option RenderNode)) :=
    (recorded_buildOptional b.2).bind fun r fs recorded => .pure (by simpa using recorded)
  unfold buildChain ReturnChain.values
  rw [filterMap_eq_flatMap_toList]
  refine (recorded_mapM branch c.branches).bind fun branches fs first => ?_
  dsimp only
  split
  · exact (recorded_buildOptional c.elseValue).bind fun r fs' second =>
      .pure (by simpa using first.append second)
  · exact .andThen (.pure none) fun r => .pure (by simpa using first)

/-- Building the pieces of a component writes down every provider that they show. -/
theorem recorded_buildTrees (read : ComponentBody) :
    Finds src (fun _ fs => Recorded src names read.pieces fs) (buildTrees src names read) := by
  have snippet (s : SnippetSource) :
      Finds src (fun _ fs => Recorded src names [s.body] fs) (do
        let body ← buildExpression src names false s.body
        return ({ name := s.name, node := s.node, body := body.getD .nothing,
                  parameters := s.parameters } : Snippet)) :=
    (recorded_buildExpression false s.body).bind fun r fs recorded => .pure (by simpa using recorded)
  unfold buildTrees
  refine (recorded_mapM snippet read.body.snippets).bind fun snippets fs first => ?_
  refine (recorded_mapM recorded_buildChain read.returns).bind fun chains fs' second => ?_
  refine (recorded_buildOptional read.final).bind fun last fs'' third => .pure ?_
  have all := first.append (second.append third)
  rw [← map_eq_flatMap] at all
  simpa [ComponentBody.pieces, valuesOf] using all

/-! ### The stages of an analysis -/

/-- The names of a component that decide how its expressions are read. -/
def modelNames (model : Model) : Names where
  props := model.props.bindings.map (·.visibleName)
  propsIdentifier := model.props.identifier
  snippets := model.snippets.map (·.name)
  contexts := model.contextDefinitions.keys
  refs := model.refs.keys

/-- The pieces that the trees of a model are built from: the bodies of its snippets, and what it
returns. -/
def modelPieces (model : Model) : List Node :=
  model.snippets.filterMap (fun s => snippetBody? s.node) ++ returnedValues model.node

/-- The elements in all the trees of a model. -/
def modelElements (model : Model) : List ElementHead :=
  treesElements (model.snippets, model.renderTree)

/-- The stages of an analysis: a component is chosen, the top level and its body are read, and its
pieces are built. The model takes its parts from these, and so do the reports. -/
structure Stages (m : Module) (o : Options) (reports : List Report) (model : Model)
    (reports' : List Report) (choice : Choice) (top : ModuleLevel) (read : ComponentBody)
    (found : Progress) : Prop where
  choosing : chooseComponent m o.sourceName = .ok choice
  topLevel : readTopLevel m choice.chosen choice.candidates = .ok top
  reading : BodyRead m.source choice.chosen.function (propsOf m.source choice.chosen)
    { bodyOfProps (propsOf m.source choice.chosen) top.contexts with
      reports := reports ++ choiceReports m.source choice } read
  building : buildTrees m.source (renderNames (propsOf m.source choice.chosen) read.body) read
    { reports := read.body.reports } = .ok (model.snippets, model.renderTree) found
  name : model.name = (nonEmpty? o.componentName).getD choice.chosen.name
  node : model.node = choice.chosen.function
  props : model.props = propsOf m.source choice.chosen
  state : model.state = setterSites m.source choice.chosen.function read.body.state
  derived : model.derived = read.body.derived
  effects : model.effects = read.body.effects
  contexts : model.contexts = read.body.consumers ++ found.providers
  contextDefinitions : model.contextDefinitions = read.body.contextDefinitions
  refs : model.refs = attachRefs found.refTargets read.body.refs
  locals : model.locals = read.body.locals
  styles : model.styles = found.styles
  reporting : reports' = found.reports
    ++ providerReports m.source read.body.state found.providers
    ++ reportUnresolved m.source model
      (visibleNames m.source model choice.chosen.name top.names read.body.declared)

variable {m : Module} {o : Options} {reports reports' : List Report} {model : Model}

/-- An analysis goes through its stages. The body is what the function of the component was read
for, and the statements of the top level are kept as they are. -/
theorem exists_run (h : analyze m o reports = .ok model reports') :
    ∃ choice top read found, Stages m o reports model reports' choice top read found ∧
      readFunctionBody m.source choice.chosen.function
        { bodyOfProps (propsOf m.source choice.chosen) top.contexts with
          reports := reports ++ choiceReports m.source choice }
        = .ok (read.returns, read.final) read.body ∧
      model.moduleItems = top.items := by
  unfold analyze at h
  obtain ⟨choice, _, hchoice, h₁⟩ := bind_ok_iff.1 h
  unfold analyzeComponent at h₁
  obtain ⟨_, _, hreported, h₂⟩ := bind_ok_iff.1 h₁
  obtain ⟨top, _, htop, h₃⟩ := bind_ok_iff.1 h₂
  obtain ⟨read, _, hread, h₄⟩ := bind_ok_iff.1 h₃
  obtain ⟨built, _, hbuilt, h₅⟩ := bind_ok_iff.1 h₄
  obtain ⟨_, _, hprovided, h₆⟩ := bind_ok_iff.1 h₅
  obtain ⟨_, _, hresolved, h₇⟩ := bind_ok_iff.1 h₆
  clear h h₁ h₂ h₃ h₄ h₅ h₆
  -- What the stages give, one after the other. The reports are handed on from stage to stage.
  obtain ⟨hchoosing, rfl⟩ := lift_ok_iff.1 hchoice
  cases hreported
  obtain ⟨htopLevel, rfl⟩ := lift_ok_iff.1 htop
  have hrun := readFunctionBody_of_readBody hread
  obtain ⟨hreading, rfl⟩ := bodyRead_of_readBody hread
  unfold renderBody at hbuilt
  split at hbuilt
  · rename_i hbuilding
    cases hbuilt
    cases hprovided
    cases hresolved
    cases h₇
    exact ⟨choice, top, read, _, ⟨hchoosing, htopLevel, hreading, hbuilding, rfl, rfl, rfl, rfl,
      rfl, rfl, rfl, rfl, rfl, rfl, rfl, rfl⟩, hrun, rfl⟩
  · cases hbuilt

/-- An analysis goes through all stages. -/
theorem exists_stages (h : analyze m o reports = .ok model reports') :
    ∃ choice top read found, Stages m o reports model reports' choice top read found := by
  obtain ⟨choice, top, read, found, stages, -⟩ := exists_run h
  exact ⟨choice, top, read, found, stages⟩

/-! ### What a model collects -/

/-- The providers of a component. -/
def provided (model : Model) : List ContextUse :=
  model.contexts.filter (·.direction == .provide)

/-- What a model collects, given what is found while its pieces are built. -/
structure Collects (src : Source) (model : Model) (fs : List Finding) : Prop where
  apart : Apart (modelPieces model) [model.node]
  parts : Parts src (modelNames model) (modelPieces model) (modelElements model) fs
  providers : provided model = fs.filterMap Finding.provider?
  /-- Every provider that is shown is one of the model's. -/
  shown : ∀ v ∈ modelPieces model, ∀ y, Shown src (modelNames model) v y →
    isProvider src (modelNames model) y = true → ∃ use ∈ provided model, use.node = y
  styles : model.styles = (fs.filterMap Finding.style?).filterMap (styleRules? src)
  /-- A ref is bound to the first element that is found with it. -/
  refs : ∀ e ∈ model.refs.entries, e.1 = e.2.name ∧
    e.2.target = ((fs.filterMap Finding.element?).find? (·.ref == some e.1)).map (·.id)

/-- A sort of reports that are tracked is found among the tracked ones. -/
theorem filter_filter_isTracked {sort : Report → Bool}
    (h : ∀ r, sort r = true → isTracked r = true) (rs : List Report) :
    (rs.filter isTracked).filter sort = rs.filter sort := by
  rw [filter_filter]
  refine filter_congr fun r _ => ?_
  cases hr : sort r with
  | false => rfl
  | true => rw [h r hr, Bool.and_true]

/-- Choosing makes no tracked report. -/
theorem filter_tracked_choiceReports (src : Source) (choice : Choice) :
    (choiceReports src choice).filter isTracked = [] := by
  refine filter_eq_nil_iff.2 fun r hr => ?_
  unfold choiceReports at hr
  dsimp only at hr
  rcases mem_append.1 hr with hr | hr
  · split at hr
    · rw [mem_singleton.1 hr]
      exact Bool.eq_false_iff.1 rfl
    · cases hr
  · obtain ⟨o, -, rfl⟩ := mem_map.1 hr
    exact Bool.eq_false_iff.1 rfl

theorem filter_tracked_providerReports (src : Source) (state : Table StateBinding)
    (providers : List ContextUse) :
    (providerReports src state providers).filter isTracked = [] := by
  refine filter_eq_nil_iff.2 fun r hr => ?_
  obtain ⟨p, -, hp⟩ := mem_filterMap.1 hr
  obtain ⟨value, -, hvalue⟩ := Option.bind_eq_some_iff.1 hp
  dsimp only at hvalue
  split at hvalue
  · cases hvalue
  · cases hvalue
    exact Bool.eq_false_iff.1 rfl

theorem filter_tracked_reportUnresolved (src : Source) (model : Model) (known : List String) :
    (reportUnresolved src model known).filter isTracked = reportUnresolved src model known := by
  refine filter_eq_self.2 fun r hr => ?_
  obtain ⟨reference, -, rfl⟩ := mem_map.1 hr
  rfl

/-- Every ref is linked to the element that it is bound to, if there is one. -/
theorem link_of_attachRefs {targets : Table Nat} {refs : Table RefBinding} {e : String × RefBinding}
    (hrefs : ∀ e ∈ refs.entries, e.1 = e.2.name ∧ e.2.target = none)
    (he : e ∈ (attachRefs targets refs).entries) :
    e.1 = e.2.name ∧ e.2.target = targets.get? e.1 := by
  obtain ⟨e', he', rfl⟩ := mem_map.1 he
  obtain ⟨hname, htarget⟩ := hrefs e' he'
  dsimp only
  cases htargets : targets.get? e'.1 with
  | none => exact ⟨hname, htarget⟩
  | some t => exact ⟨hname, rfl⟩

theorem map_eq_filterMap {α β γ : Type} {f : β → Option γ} {g : α → γ} {as : List α} {bs : List β}
    (h : Forall₂ (fun a b => f b = some (g a)) as bs) : as.map g = bs.filterMap f := by
  induction h with
  | nil => rfl
  | cons hb _ ih => rw [map_cons, filterMap_cons_some hb, ih]

namespace Stages

variable {choice : Choice} {top : ModuleLevel} {read : ComponentBody} {found : Progress}

/-- The names known while building are those of the model. -/
theorem names_eq (h : Stages m o reports model reports' choice top read found)
    (snippets : Forall₂ SnippetBuilt read.body.snippets model.snippets) :
    renderNames (propsOf m.source choice.chosen) read.body = modelNames model := by
  have names : read.body.snippets.map (·.name) = model.snippets.map (·.name) := by
    refine forall₂_eq_eq_eq ▸ ?_
    exact forall₂_map_left_iff.2 (forall₂_map_right_iff.2 (snippets.imp fun _ _ h => h.1.symm))
  simp [renderNames, modelNames, h.props, h.contextDefinitions, h.refs, names, attachRefs]

/-- Nothing comes behind a return in any case. -/
theorem settled (h : Stages m o reports model reports' choice top read found) :
    Settled read.returns read.final := by
  have ends := settled_functionEnds choice.chosen.function
  rwa [← h.reading.ends] at ends

/-- Each snippet is built from its source. -/
theorem snippets (h : Stages m o reports model reports' choice top read found) :
    Forall₂ SnippetBuilt read.body.snippets model.snippets := by
  obtain ⟨fs, -, snippets, -⟩ := parts_buildTrees h.settled h.building
  exact snippets

/-- The pieces read are those of the model. -/
theorem pieces_eq (h : Stages m o reports model reports' choice top read found) :
    read.pieces = modelPieces model := by
  have bodies : read.body.snippets.map (·.body)
      = model.snippets.filterMap (fun s => snippetBody? s.node) := by
    have built : Forall₂ (fun s b => snippetBody? b.node = some s.body)
        read.body.snippets model.snippets := by
      have standing := (forall₂_and_left _ _).2 ⟨h.reading.sourced.snippets, h.snippets⟩
      refine standing.imp fun s b hs => ?_
      rw [hs.2.2.1]
      exact hs.1.2.2.1
    exact map_eq_filterMap built
  have returned : valuesOf (read.returns, read.final) = returnedValues model.node := by
    rw [h.reading.ends, returnedValues, h.node]
  rw [ComponentBody.pieces, modelPieces, bodies, returned]

/-- What is written down of providers are uses that provide. -/
theorem provision (h : Stages m o reports model reports' choice top read found) :
    ∀ use ∈ found.providers, IsProvision use := by
  obtain ⟨fs, hfs, -, parts⟩ := parts_buildTrees h.settled h.building
  have providers : found.providers = fs.filterMap Finding.provider? := by
    have := congrArg Collected.providers hfs
    rwa [providers_foldl_record] at this
  intro use huse
  rw [providers, Finding.mem_providers] at huse
  exact (parts.account.sound _ huse).1

/-- What the model of a component collects, and the reports that are tracked. -/
theorem exists_findings (h : Stages m o reports model reports' choice top read found) :
    ∃ fs, Collects m.source model fs ∧
      reports'.filter isTracked = reports.filter isTracked
        ++ ((provided model).filter (·.isNested)).map (hoistedReport m.source)
        ++ reportUnresolved m.source model
          (visibleNames m.source model choice.chosen.name top.names read.body.declared) := by
  obtain ⟨fs, hfs, -, parts⟩ := parts_buildTrees h.settled h.building
  obtain ⟨fs', hfs', recorded⟩ := recorded_buildTrees read h.building
  rw [h.names_eq h.snippets, h.pieces_eq] at parts recorded
  -- What is written down of the findings is what the model takes over.
  have providers (gs : List Finding) (hgs : found.collected = gs.foldl (Finding.record m.source)
      (Progress.collected { reports := read.body.reports })) :
      found.providers = gs.filterMap Finding.provider? := by
    have := congrArg Collected.providers hgs
    rwa [providers_foldl_record] at this
  have provides : provided model = found.providers := by
    have consumers : read.body.consumers.filter (·.direction == .provide) = [] :=
      filter_eq_nil_iff.2 fun u hu => by simp [h.reading.sourced.consumers u hu]
    rw [provided, h.contexts, filter_append, consumers, nil_append]
    exact filter_eq_self.2 fun use huse => by simp [(h.provision use huse).1]
  refine ⟨fs, ⟨?_, parts, provides.trans (providers fs hfs), ?_, ?_, ?_⟩, ?_⟩
  · rw [← h.pieces_eq, h.node]
    exact h.reading.apart_pieces
  · intro v hv y hy hprovider
    obtain ⟨use, huse, hnode⟩ := recorded v hv y hy hprovider
    refine ⟨use, ?_, hnode⟩
    rwa [provides, providers fs' hfs', Finding.mem_providers]
  · have := congrArg Collected.styles hfs
    rw [styles_foldl_record] at this
    rw [h.styles]
    exact this
  · intro e he
    rw [h.refs] at he
    obtain ⟨hname, htarget⟩ := link_of_attachRefs h.reading.sourced.refs he
    refine ⟨hname, htarget.trans ?_⟩
    have := congrArg (fun c => c.refTargets.get? e.1) hfs
    rw [get?_foldl_record] at this
    exact this
  · have written : found.reports.filter isTracked = read.body.reports.filter isTracked
        ++ ((provided model).filter (·.isNested)).map (hoistedReport m.source) := by
      have := congrArg Collected.reports hfs
      rw [reports_foldl_record, ← providers fs hfs, ← provides] at this
      exact this
    have start := h.reading.sourced.reports
    rw [filter_append, filter_tracked_choiceReports, append_nil] at start
    rw [h.reporting, filter_append, filter_append, written, start, filter_tracked_providerReports,
      filter_tracked_reportUnresolved, append_nil]

end Stages

end Sveltify.Analysis
