import Mathlib.Data.String.Basic
import Sveltify.Proofs.Assembly.Changes
import Sveltify.Proofs.Assembly.Effects
import Sveltify.Proofs.Assembly.Lost

namespace Sveltify.Assembly

open Analysis Component Svelte

/-!
# Scripts import what they call

Some entries of a script call functions of the framework. These are needed while the entries are
built, before it is known whether a construct is refused, so more may be imported than is called, but
never less.

* `calls`: the functions of the framework that an entry calls;
* `Gains names p q`: the names are needed in the state `q`, and so is all that is needed in `p`;
* `gains_assembleComponent`: what is needed when a component has been assembled;
* `Stems`: what an entry is in the script for;
* `Classified`: how an effect runs, by its hook and its dependency list;
* `calls_are_imported`: all that a script calls is imported, each name once and in order.
-/

variable {src : Source} {model : Model} {indent : String}

/-! ### Names in order -/

/-- Of a list in order each entry is left once. -/
theorem pairwise_lt_eraseDups {names : List String} (h : names.Pairwise (· ≤ ·)) :
    names.eraseDups.Pairwise (· < ·) := by
  cases names with
  | nil => exact .nil
  | cons name names =>
    obtain ⟨hle, hrest⟩ := List.pairwise_cons.1 h
    rw [List.eraseDups_cons]
    refine .cons (fun other hother => ?_) (pairwise_lt_eraseDups (hrest.filter _))
    -- What is left behind an entry differs from it, so it comes strictly after it.
    obtain ⟨hmem, hne⟩ := List.mem_filter.1 (List.mem_eraseDups.1 hother)
    exact lt_of_le_of_ne (hle other hmem) fun heq => by simp [heq] at hne
termination_by names.length
decreasing_by
  subst_vars
  exact Nat.lt_succ_of_le (List.length_filter_le _ _)

/-- The names are sorted without repetition. -/
theorem sortedNames_pairwise (names : List String) : (sortedNames names).Pairwise (· < ·) := by
  refine pairwise_lt_eraseDups ?_
  have sorted : (names.mergeSort fun a b => decide (a ≤ b)).Pairwise
      fun a b => decide (a ≤ b) = true :=
    List.pairwise_mergeSort (by simpa using fun a b c => le_trans) (by simpa using le_total) names
  simpa using sorted

/-- No name is lost by sorting. -/
theorem mem_sortedNames_iff {name : String} {names : List String} :
    name ∈ sortedNames names ↔ name ∈ names := by
  rw [sortedNames, List.mem_eraseDups, List.mem_mergeSort]

/-! ### Needed names -/

/-- The names are needed in the second state, and so is all that is needed in the first. -/
def Gains (names : List String) (p q : Progress) : Prop :=
  p.svelteImports ++ names ⊆ q.svelteImports

/-- The names of two steps in a row. -/
theorem Gains.trans {as bs : List String} {p q r : Progress} (h : Gains as p q)
    (h' : Gains bs q r) : Gains (as ++ bs) p r := by
  unfold Gains at *
  grind

theorem Gains.thereafter {names : List String} {p q r : Progress} (h : Gains names p q)
    (h' : Gains [] q r) : Gains names p r := by
  have := h.trans h'
  rwa [List.append_nil] at this

/-- No step gives up a needed name. -/
theorem bears_gains (src : Source) : Bears src (Gains []) where
  refl p := by simp [Gains]
  trans h h' := h.thereafter h'
  remark p use := by
    unfold Progress.remark
    split <;> simp [Gains]
  useImports p names := by simp [Gains]
  report p r _ := by simp [Gains]
  leave p r := by simp [Gains]
  useTags p tags := by simp [Gains]

/-- A step gains the names that it asks for. -/
theorem along_useImports (names : List String) : Along (Gains names) (useImports names) :=
  Absorbs.along_modify fun _ => List.Subset.refl _

/-- The names are needed even if the effect is refused. -/
theorem along_effectNodes (e : EffectBinding) :
    Along (Gains (effectImports e)) (effectNodes src model e) := by
  have h := bears_gains src
  refine (along_useImports _).bind (S := Gains []) (fun _ => ?_) Gains.thereafter
  exact h.along_map ((plain_effectDeclaration e).along h.toAbsorbs)

theorem along_consumerNodes (u : ContextUse) :
    Along (Gains ["getContext"]) (consumerNodes src model u) := by
  have h := bears_gains src
  refine (along_useImports _).bind (S := Gains []) (fun _ => ?_) Gains.thereafter
  refine h.along_bind ((plain_convertedText? u.defaultValue).along h.toAbsorbs) fun _ => ?_
  exact h.along_map (h.along_need _)

/-- What is needed for each entry of a list. -/
theorem leads_mapM {α β : Type} {names : β → List String} {f : β → Assembling α}
    (hf : ∀ b, Along (Gains (names b)) (f b)) (l : List β) :
    Leads (Gains (l.flatMap names)) (l.mapM f) := by
  induction l with
  | nil =>
    intro p as q hrun
    cases hrun
    simp [Gains]
  | cons b l ih =>
    intro p as q hrun
    rw [List.mapM_cons] at hrun
    obtain ⟨a, p₁, h₁, hrun⟩ := bind_ok_iff.1 hrun
    obtain ⟨as', p₂, h₂, hrun⟩ := bind_ok_iff.1 hrun
    cases hrun
    rw [List.flatMap_cons]
    exact ((hf b).ok h₁).trans (ih h₂)

section

variable (model : Model)

/-- The contexts that the component consumes, or those that it provides. -/
def contextsOf (direction : ContextDirection) : List ContextUse :=
  model.contexts.filter (·.direction == direction)

/-- The names that the declarations of a component need. -/
def declarationImports : List String :=
  model.effects.flatMap effectImports
    ++ (contextsOf model .consume).flatMap fun _ => ["getContext"]

/-- The names that the parts of a component need. -/
def neededImports : List String :=
  declarationImports model ++ (contextsOf model .provide).flatMap fun _ => ["setContext"]

end

/-- Declarations gain the names that they call. -/
theorem leads_declarationGroups :
    Leads (Gains (declarationImports model)) (declarationGroups src model indent) := by
  have h := bears_gains src
  have group {names : List String} {build : Assembling (List ScriptNode)}
      (hbuild : Along (Gains names) build) (n : Node) (before : String) :
      Along (Gains names) (groupFor src n before build) :=
    h.along_groupFor (R := Gains names) Gains.thereafter hbuild n before
  have plain {build : Assembling (List ScriptNode)} (hbuild : Plain src build) (n : Node)
      (before : String) : Along (Gains []) (groupFor src n before build) :=
    group (hbuild.along h.toAbsorbs) n before
  intro p groups q hrun
  obtain ⟨state, p₁, hstate, hrun⟩ := bind_ok_iff.1 hrun
  obtain ⟨derived, p₂, hderived, hrun⟩ := bind_ok_iff.1 hrun
  obtain ⟨effects, p₃, heffects, hrun⟩ := bind_ok_iff.1 hrun
  obtain ⟨consumers, p₄, hconsumers, hrun⟩ := bind_ok_iff.1 hrun
  obtain ⟨refs, p₅, hrefs, hrun⟩ := bind_ok_iff.1 hrun
  obtain ⟨locals, p₆, hlocals, hrun⟩ := bind_ok_iff.1 hrun
  cases hrun
  -- Effects and consumed contexts bring names with them; no other kind gives one up.
  have hstate := (h.along_mapM (fun b => plain (plain_stateNodes b) _ _) _).ok hstate
  have hderived := (h.along_mapM (fun d => plain (plain_derivedNodes d) _ _) _).ok hderived
  have heffects := leads_mapM (fun e => group (along_effectNodes e) _ _) _ heffects
  have hconsumers := leads_mapM (fun u => group (along_consumerNodes u) _ _) _ hconsumers
  have hrefs := (h.along_mapM (fun r => plain (plain_refNodes r) _ _) _).ok hrefs
  have hlocals := (h.along_mapM (fun l => group (h.along_localNodes l) _ _) _).ok hlocals
  have before := hstate.trans hderived
  exact ((before.trans (heffects.trans hconsumers)).thereafter hrefs).thereafter hlocals

/-- Provided contexts gain theirs. -/
theorem leads_provisionNodes :
    Leads (Gains ((contextsOf model .provide).flatMap fun _ => ["setContext"]))
      (provisionNodes src model) := by
  have h := bears_gains src
  intro p entries q hrun
  obtain ⟨groups, p₁, hgroups, hrun⟩ := bind_ok_iff.1 hrun
  cases hrun
  refine leads_mapM (fun u => ?_) _ hgroups
  refine (along_useImports _).bind (S := Gains []) (fun _ => ?_) Gains.thereafter
  exact h.along_groupFor (R := Gains []) Gains.thereafter
    ((plain_providerNodes u).along h.toAbsorbs) _ _

/-- When a component has been assembled, all is needed that its parts need. -/
theorem gains_assembleComponent {c : SvelteComponent} {p q : Progress}
    (hrun : assembleComponent src model indent p = .ok c q) :
    Gains (neededImports model) p q ∧ c.svelteImports = sortedNames q.svelteImports := by
  have h := bears_gains src
  obtain ⟨a, rfl⟩ := exists_assembled hrun
  refine ⟨?_, rfl⟩
  -- The imports are taken at the very end, so what comes after the script must keep them.
  have hprops := (plain_propsDeclaration.along h.toAbsorbs).ok a.props_run
  have hneeded := (leads_declarationGroups a.groups_run).trans
    (leads_provisionNodes a.provisions_run)
  have hsnippets := (h.along_mapM h.along_snippetMarkup _).ok a.snippets_run
  have hmarkup := (h.along_optionalMarkup _).ok a.markup_run
  have hparts := h.along_moduleParts.ok a.parts_run
  exact (((hprops.trans hneeded).thereafter hsnippets).thereafter hmarkup).thereafter hparts

/-! ### What entries are for -/

/-- The functions of the framework that an entry of a script calls. -/
def calls : ScriptNode → List String
  | .effect d =>
    (if d.rune = .onMount then ["onMount"] else []) ++ if d.isUntracked then ["untrack"] else []
  | .contextGet _ => ["getContext"]
  | .contextSet _ => ["setContext"]
  | _ => []

/-- An effect is in a script for one of the component, and runs like it; the look-up or the provision
of a context is there for one that the component consumes or provides. -/
def Stems (model : Model) : ScriptNode → Prop
  | .effect d => ∃ e ∈ model.effects, d.rune = effectRune e ∧ d.isUntracked = isUntracked e
  | .contextGet d => ∃ u ∈ contextsOf model .consume, d.key = u.key
  | .contextSet d => ∃ u ∈ contextsOf model .provide, d.key = u.key
  | _ => True

/-- A basic entry stems from any model. -/
theorem stems_of_isBasic {entry : ScriptNode} (h : isBasic entry = true) : Stems model entry := by
  cases entry with
  | effect | contextGet | contextSet => cases h
  | _ => trivial

/-- The declaration of an effect runs like the effect. -/
theorem yields_effectDeclaration_rune (e : EffectBinding) :
    Yields (fun d => d.rune = effectRune e ∧ d.isUntracked = isUntracked e)
      (effectDeclaration src model e) := by
  unfold effectDeclaration
  cases e.isFunctionReference with
  | true => exact .bind fun _ => .pure ⟨rfl, rfl⟩
  | false => exact .bind fun _ => .bind fun _ => .bind fun _ => .pure ⟨rfl, rfl⟩

theorem Piece.BuildsBasic.stemming {p : Piece} (h : p.BuildsBasic) : p.BuildsOnly (Stems model) :=
  fun _ _ _ hrun entry hentry => stems_of_isBasic (h hrun entry hentry)

theorem buildsStemming_of_mem {p : Piece} (hp : p ∈ orderedPieces src model indent) :
    p.BuildsOnly (Stems model) := by
  simp only [orderedPieces, declarationPieces, kindPieces, List.mem_append, List.mem_map] at hp
  rcases hp with ⟨item, -, rfl⟩ |
    (((((⟨b, -, rfl⟩ | ⟨d, -, rfl⟩) | ⟨e, he, rfl⟩) | ⟨u, hu, rfl⟩) | ⟨r, -, rfl⟩) | ⟨l, -, rfl⟩)
  · exact (buildsBasic_itemPiece item).stemming
  · exact (buildsBasic_statePiece b).stemming
  · exact .bind fun _ => .pure (by simp [Stems])
  · refine .bind fun _ => (yields_effectDeclaration_rune e).andThen fun d hd => .pure ?_
    simpa [Stems] using ⟨e, he, hd⟩
  · refine .bind fun _ => .bind fun _ => .bind fun _ => .pure ?_
    simpa [Stems] using ⟨u, hu, rfl⟩
  · exact .bind fun _ => .pure (by simp [Stems])
  · exact (buildsBasic_localPiece l).stemming

/-- Every entry stems from the model. -/
theorem stems_of_mem_script {reports reports' : List Report} {c : SvelteComponent}
    (hrun : toSvelte src model indent reports = .ok c reports') :
    ∀ entry ∈ c.script, Stems model entry := by
  obtain ⟨l⟩ := exists_layout hrun
  have provider (u : ContextUse) (hu : u ∈ model.contexts) (hdirection : u.direction = .provide) :
      (providerPiece src model u).BuildsOnly (Stems model) := by
    refine .bind fun _ => .pure ?_
    simpa [Stems, contextsOf] using ⟨u, ⟨hu, hdirection⟩, rfl⟩
  have all := l.all_of_mem (fun _ => trivial) (fun item => (buildsBasic_itemPiece item).stemming)
    (fun _ => buildsStemming_of_mem) provider
  intro entry hentry
  rw [l.parts] at hentry
  -- Props are declared apart from the pieces, and call nothing.
  by_cases hprops : entry ∈ l.props.toList.map .props
  · obtain ⟨d, -, rfl⟩ := List.mem_map.1 hprops
    trivial
  · refine all entry ?_
    simp only [List.mem_append] at hentry ⊢
    tauto

/-- What an entry calls is needed by a part of the component. -/
theorem calls_subset_neededImports {entry : ScriptNode} (h : Stems model entry) :
    calls entry ⊆ neededImports model := by
  unfold neededImports declarationImports
  -- Only effects and contexts call functions that have to be imported.
  cases entry with
  | effect d =>
    obtain ⟨e, he, hrune, huntracked⟩ := h
    have heq : calls (.effect d) = effectImports e := by
      rw [calls, hrune, huntracked, effectImports]
    rw [heq]
    intro name hname
    exact List.mem_append_left _ (List.mem_append_left _ (List.mem_flatMap.2 ⟨e, he, hname⟩))
  | contextGet d =>
    obtain ⟨u, hu, -⟩ := h
    intro name hname
    exact List.mem_append_left _ (List.mem_append_right _ (List.mem_flatMap.2 ⟨u, hu, hname⟩))
  | contextSet d =>
    obtain ⟨u, hu, -⟩ := h
    intro name hname
    exact List.mem_append_right _ (List.mem_flatMap.2 ⟨u, hu, hname⟩)
  | _ => exact List.nil_subset _

/-! ### How effects run -/

/-- The hook is called with a list without entries as its dependencies. -/
def HasEmptyList (hook : HookCall) : Prop :=
  ∃ list, hook.argument? 1 = some list ∧ list.kind = "array" ∧ list.namedChildren = []

/-- Only an empty list means once. -/
theorem dependencyKind_eq_onMount_iff {hook : HookCall} :
    dependencyKind (hook.argument? 1) = .onMount ↔ HasEmptyList hook := by
  unfold dependencyKind HasEmptyList Hook.isEmptyList
  cases hook.argument? 1 with
  | none => simp
  | some list => simp

/-- How an effect runs, by its hook and its dependency list. -/
structure Classified (hook : HookCall) (d : EffectDeclaration) : Prop where
  onMount_iff : d.rune = .onMount ↔ hook.kind = .useEffect ∧ HasEmptyList hook
  effectPre_iff : d.rune = .effectPre ↔ hook.kind = .useLayoutEffect
  isUntracked_iff : d.isUntracked = true ↔ hook.kind = .useLayoutEffect ∧ HasEmptyList hook

/-- An effect is classified by its list. -/
theorem classified_of_read {e : EffectBinding} {hook : HookCall} {inner : Node}
    {d : EffectDeclaration} (hread : EffectRead src e hook inner) (hrune : d.rune = effectRune e)
    (huntracked : d.isUntracked = isUntracked e) : Classified hook d := by
  have timing : e.timing = if hook.kind == .useLayoutEffect then .prePaint else .postPaint :=
    congrArg EffectBinding.timing hread.eq
  have kind : e.dependencyKind = dependencyKind (hook.argument? 1) :=
    congrArg EffectBinding.dependencyKind hread.eq
  have onMount : e.dependencyKind = .onMount ↔ HasEmptyList hook := by
    rw [kind, dependencyKind_eq_onMount_iff]
  -- The hook fixes the timing; what is left to tell apart is the dependency list.
  rcases hread.kind with hkind | hkind
  · have post : e.timing = .postPaint := by rw [timing, hkind]; rfl
    refine ⟨?_, ?_, ?_⟩
    · rw [hrune, effectRune, post, ← onMount]
      cases e.dependencyKind <;> simp [hkind]
    · rw [hrune, effectRune, post]
      cases e.dependencyKind <;> simp [hkind]
    · rw [huntracked, isUntracked, post]
      simp [hkind]
  · have pre : e.timing = .prePaint := by rw [timing, hkind]; rfl
    refine ⟨?_, ?_, ?_⟩
    · rw [hrune, effectRune, pre]
      simp [hkind]
    · rw [hrune, effectRune, pre]
      simp [hkind]
    · rw [huntracked, isUntracked, pre, ← onMount]
      simp [hkind]

/-- The effect has been read off a hook. It becomes one entry of a script, which runs as that hook
says, or a placeholder if it holds something that is refused. -/
def RunsAsRead (src : Source) (model : Model) (e : EffectBinding) (entry : ScriptNode) : Prop :=
  ∃ hook inner, EffectRead src e hook inner ∧
    ((∃ d, entry = .effect d ∧ Classified hook d) ∨
      ∃ ph r, entry = .placeholder ph ∧ refusalOf (effectNodes src model e) = some r)

theorem effectPieces_sublist : (model.effects.map (effectPiece src model)).Sublist
    (orderedPieces src model indent) := by
  have among : (model.effects.map (effectPiece src model)).Sublist
      (declarationPieces src model indent) :=
    (List.sublist_append_right _ _).trans <| (List.sublist_append_left _ _).trans <|
      (List.sublist_append_left _ _).trans (List.sublist_append_left _ _)
  exact among.trans (List.sublist_append_right _ _)

theorem runsAsRead_of_written {e : EffectBinding}
    (hread : ∃ hook inner, EffectRead src e hook inner) {entries : List ScriptNode}
    (h : Written src (effectPiece src model e) entries) :
    ∃ entry, entries = [entry] ∧ RunsAsRead src model e entry := by
  obtain ⟨hook, inner, hread⟩ := hread
  cases h with
  | @left r ph hr _ => exact ⟨_, rfl, hook, inner, hread, .inr ⟨ph, r, rfl, hr⟩⟩
  | built hrun =>
    obtain ⟨_, p₁, _, hrun⟩ := bind_ok_iff.1 hrun
    obtain ⟨d, p₂, hd, hrun⟩ := bind_ok_iff.1 hrun
    cases hrun
    obtain ⟨hrune, huntracked⟩ := yields_effectDeclaration_rune e hd
    exact ⟨_, rfl, hook, inner, hread, .inl ⟨d, rfl, classified_of_read hread hrune huntracked⟩⟩

/-- The effects of a script run as the hooks say that they have been read off. Each effect of the
component has an entry of its own, and no effect is in the script for anything else. -/
structure EffectsAsRead (src : Source) (model : Model) (script : List ScriptNode) : Prop where
  entries : ∃ entries : List ScriptNode, entries.Subperm script ∧
    List.Forall₂ (RunsAsRead src model) model.effects entries
  origin : ∀ d, .effect d ∈ script → ∃ e ∈ model.effects, ∃ hook inner,
    EffectRead src e hook inner ∧ Classified hook d

/-- Every effect runs as it was read. -/
theorem effectsAsRead_of_analyze {m : Module} {o : Options} {r₁ r₂ reports reports' : List Report}
    {c : SvelteComponent} (hmodel : analyze m o r₁ = .ok model r₂)
    (hrun : toSvelte m.source model indent reports = .ok c reports') :
    EffectsAsRead m.source model c.script := by
  have hread := effectRead_of_analyze hmodel
  refine ⟨?_, fun d hd => ?_⟩
  · obtain ⟨l⟩ := exists_layout hrun
    obtain ⟨groups, hgroups, hwritten⟩ := l.exists_entries effectPieces_sublist
    rw [List.forall₂_map_left_iff] at hwritten
    refine ⟨groups.flatten, hgroups, forall₂_flatten hwritten fun e he g hg => ?_⟩
    exact runsAsRead_of_written (hread e he) hg
  · obtain ⟨e, he, hrune, huntracked⟩ := stems_of_mem_script hrun _ hd
    obtain ⟨hook, inner, hread⟩ := hread e he
    exact ⟨e, he, hook, inner, hread, classified_of_read hread hrune huntracked⟩

/-- **Scripts import what they call.** Whatever component is assembled, each function of the
framework that its script calls is imported: `onMount` and `untrack` for effects, `getContext` and
`setContext` for contexts. The names are in order, each of them once. If the component has been read
off a module, then an effect is run by `onMount` just if it is a `useEffect` with an empty dependency
list, and it is untracked just if it is a `useLayoutEffect` with an empty one. -/
theorem calls_are_imported {reports reports' : List Report} {c : SvelteComponent}
    (hrun : toSvelte src model indent reports = .ok c reports') :
    (∀ entry ∈ c.script, calls entry ⊆ c.svelteImports) ∧
    c.svelteImports.Pairwise (· < ·) ∧
    ∀ (m : Module) (o : Options) (r₁ r₂ : List Report), m.source = src →
      analyze m o r₁ = .ok model r₂ → EffectsAsRead src model c.script := by
  have stems := stems_of_mem_script hrun
  obtain ⟨q, hassembled, -⟩ := assembleComponent_of_toSvelte hrun
  obtain ⟨hgains, himports⟩ := gains_assembleComponent hassembled
  refine ⟨fun entry hentry name hname => ?_, himports ▸ sortedNames_pairwise _, ?_⟩
  · rw [himports, mem_sortedNames_iff]
    exact hgains (List.mem_append_right _ (calls_subset_neededImports (stems entry hentry) hname))
  · rintro m o r₁ r₂ rfl hmodel
    exact effectsAsRead_of_analyze hmodel hrun

section Sample

open Node

/-- The call of an effect hook whose name stands at these offsets, with an empty dependency list. -/
def effectCall (start stop : Nat) : Node :=
  plain "expression_statement" start (stop + 19) [plain "call_expression" start (stop + 18)
    [plain "identifier" start stop [] (some "function"),
     plain "arguments" stop (stop + 18)
      [stopArrow (stop + 1) none, plain "array" (stop + 15) (stop + 17) []] (some "arguments")]]

/-- A component with a context and two effects. -/
def mountModule : Module :=
  appModule
    ("function App() \x7b const t = useContext(T); useLayoutEffect(() => stop(), []); "
      ++ "useEffect(() => stop(), []); return <p/>; \x7d")
    [] 15
    [plain "lexical_declaration" 17 41 [plain "variable_declarator" 23 40
      [plain "identifier" 23 24 [] (some "name"),
       plain "call_expression" 27 40
        [plain "identifier" 27 37 [] (some "function"),
         plain "arguments" 37 40 [plain "identifier" 38 39 []] (some "arguments")]
        (some "value")]],
     effectCall 42 57, effectCall 77 86,
     plain "return_statement" 106 118 [emptyElement 113 none]]

/-- One of its effects runs untracked before painting, the other one on mount. -/
theorem calls_are_imported_of_mount : ∃ model reports c reports',
    analyze mountModule {} [] = .ok model reports ∧
    toSvelte mountModule.source model "  " reports = .ok c reports' ∧
    model.effects.map (fun e => (effectRune e, isUntracked e)) =
      [(.effectPre, true), (.onMount, false)] ∧
    (contextsOf model .consume).map (·.key) = ["T"] ∧
    (∀ entry ∈ c.script, calls entry ⊆ c.svelteImports) ∧ c.svelteImports.Pairwise (· < ·) ∧
    EffectsAsRead mountModule.source model c.script := by
  have test : endsIn (analyze mountModule {}) [] (fun model reports =>
      model.effects.map (fun e => (effectRune e, isUntracked e)) ==
          [(.effectPre, true), (.onMount, false)] &&
        (contextsOf model .consume).map (·.key) == ["T"] &&
        endsIn (toSvelte mountModule.source model "  ") reports fun _ _ => true) = true := by
    decide +kernel
  obtain ⟨model, reports, hmodel, hchecked⟩ := exists_ok_of_endsIn test
  obtain ⟨hread, hassembled⟩ := Bool.and_eq_true_iff.1 hchecked
  obtain ⟨heffects, hcontexts⟩ := Bool.and_eq_true_iff.1 hread
  obtain ⟨c, reports', hrun, -⟩ := exists_ok_of_endsIn hassembled
  obtain ⟨hcalls, hsorted, hrunning⟩ := calls_are_imported hrun
  exact ⟨model, reports, c, reports', hmodel, hrun, eq_of_beq heffects, eq_of_beq hcontexts,
    hcalls, hsorted, hrunning mountModule {} [] reports rfl hmodel⟩

end Sample

end Sveltify.Assembly
