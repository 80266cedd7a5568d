import Sveltify.Proofs.Analysis.Checked
import Sveltify.Proofs.Analysis.SetterSites
import Sveltify.Proofs.Analysis.TopLevel

namespace Sveltify.Analysis

open Text Scope Component Render Node List

/-!
# Reports of names that are declared nowhere

* `mem_map_unresolvedIn_iff`, `nodup_unresolvedIn`: the first uses of unknown names have all the
  names that are used and not known, each once;
* `givenNames_moves`: whatever is read of a body has names that are declared;
  `Stages.visible_subset`: so the names that a component may use are declared somewhere;
* `unknown_names`: a name that is declared nowhere is reported once if an expression that is checked
  uses it, and else not at all;
* `unreported_tag`: the name of a tag is used by no such expression.
-/

variable {src : Source}

/-! ### First uses -/

section FirstUses

variable {known seen : List String} {rs : List Node} {x : String}

theorem firstUnknown_subset : firstUnknown src known seen rs ⊆ rs := by
  induction rs generalizing seen with
  | nil => exact Subset.refl _
  | cons r rs ih =>
    rw [firstUnknown]
    split
    · exact Subset.trans ih (subset_cons_self _ _)
    · exact cons_subset_cons r ih

/-- The names that are neither known nor seen. -/
theorem mem_map_firstUnknown :
    x ∈ (firstUnknown src known seen rs).map src.text ↔
      x ∈ rs.map src.text ∧ x ∉ known ∧ x ∉ seen := by
  induction rs generalizing seen with
  | nil => simp [firstUnknown]
  | cons r rs ih =>
    rw [firstUnknown]
    split
    · -- A name that is known or was met before adds nothing.
      rename_i hold
      have old : src.text r ∈ known ∨ src.text r ∈ seen := by simpa using hold
      rw [ih, map_cons, mem_cons]
      constructor
      · exact fun ⟨hx, hnew⟩ => ⟨.inr hx, hnew⟩
      · rintro ⟨rfl | hx, hknown, hseen⟩
        · exact (old.elim hknown hseen).elim
        · exact ⟨hx, hknown, hseen⟩
    · -- A new name counts as met from here on.
      rename_i hnew
      have new : src.text r ∉ known ∧ src.text r ∉ seen := by simpa using hnew
      rw [map_cons, mem_cons, ih, map_cons, mem_cons, mem_cons]
      by_cases hx : x = src.text r
      · simp [hx, new]
      · simp [hx]

/-- Each name is kept once. -/
theorem nodup_firstUnknown : ((firstUnknown src known seen rs).map src.text).Nodup := by
  induction rs generalizing seen with
  | nil => exact nodup_nil
  | cons r rs ih =>
    rw [firstUnknown]
    split
    · exact ih
    · rw [map_cons]
      refine nodup_cons.2 ⟨fun hmem => ?_, ih⟩
      exact (mem_map_firstUnknown.1 hmem).2.2 mem_cons_self

variable {reported : List String} {us : List (Node × List String)}

/-- The first uses of unknown names in expressions have the names that are unknown in one of them,
but for those that have been reported. -/
theorem mem_map_unresolvedIn_iff :
    x ∈ (unresolvedIn src known reported us).map src.text ↔
      x ∉ reported ∧ ∃ u ∈ us, x ∈ (unresolved src known u.2 u.1).map src.text := by
  induction us generalizing reported with
  | nil => simp [unresolvedIn]
  | cons u us ih =>
    obtain ⟨n, extra⟩ := u
    have found : x ∈ ((unresolved src known extra n).filter
        fun r => !reported.contains (src.text r)).map src.text ↔
        x ∉ reported ∧ x ∈ (unresolved src known extra n).map src.text := by
      simp only [mem_map, mem_filter]
      constructor
      · rintro ⟨r, ⟨hr, hnew⟩, rfl⟩
        exact ⟨by simpa using hnew, r, hr, rfl⟩
      · rintro ⟨hnew, r, hr, rfl⟩
        exact ⟨r, ⟨hr, by simpa using hnew⟩, rfl⟩
    rw [unresolvedIn, map_append, mem_append, ih, found, mem_append, found, exists_mem_cons_iff]
    grind

/-- No name is reported twice. -/
theorem nodup_unresolvedIn : ((unresolvedIn src known reported us).map src.text).Nodup := by
  induction us generalizing reported with
  | nil => exact nodup_nil
  | cons u us ih =>
    rw [unresolvedIn, map_append, nodup_append]
    refine ⟨nodup_firstUnknown.sublist (filter_sublist.map _), ih, ?_⟩
    intro x hfound y hrest hxy
    subst hxy
    exact (mem_map_unresolvedIn_iff.1 hrest).1 (mem_append_right _ hfound)

/-- What is reported is a reference. -/
theorem exists_of_mem_unresolvedIn {r : Node} (h : r ∈ unresolvedIn src known reported us) :
    ∃ u ∈ us, r ∈ references src u.1 := by
  induction us generalizing reported with
  | nil => cases h
  | cons u us ih =>
    rw [unresolvedIn] at h
    rcases mem_append.1 h with h | h
    · exact ⟨u, mem_cons_self, firstUnknown_subset (mem_filter.1 h).1⟩
    · obtain ⟨v, hv, hr⟩ := ih h
      exact ⟨v, mem_cons_of_mem _ hv, hr⟩

/-- Of nodes with different texts, one has the text of a given one. -/
theorem filter_text_of_nodup {r : Node} (h : (rs.map src.text).Nodup) (hr : r ∈ rs) :
    rs.filter (src.text · == src.text r) = [r] := by
  induction rs with
  | nil => cases hr
  | cons s rs ih =>
    obtain ⟨hnew, hrest⟩ := nodup_cons.1 h
    rw [filter_cons]
    rcases mem_cons.1 hr with rfl | hr
    · have others : rs.filter (src.text · == src.text r) = [] := by
        refine filter_eq_nil_iff.2 fun s hs heq => hnew ?_
        exact mem_map.2 ⟨s, hs, eq_of_beq heq⟩
      simp [others]
    · have differ : src.text s ≠ src.text r := fun heq => hnew (mem_map.2 ⟨r, hr, heq.symm⟩)
      simp [differ, ih hrest hr]

end FirstUses

/-! ### Names that a component may use -/

/-- The names of what has been read of a body. -/
def Body.givenNames (src : Source) (b : Body) : List String :=
  b.state.values.flatMap stateNames ++ b.derived.values.flatMap (·.names) ++ b.refs.keys
    ++ b.consumers.flatMap (fun u => boundNamesOf src u.binding) ++ b.locals.flatMap (·.names)
    ++ b.snippets.map (·.name)

section Given

variable {patterns : List Node} {b b' : Body}

/-- An owner gives its names. -/
theorem givenNames_enter (o : Owner) (b : Body) :
    (o.enter b).givenNames src ⊆ b.givenNames src ++ o.names src := by
  intro x hx
  simp only [Body.givenNames, mem_append] at hx ⊢
  -- Each owner goes into one table or list, which gains at most the names of the owner.
  cases o with
  | props p => exact .inl hx
  | state s =>
    have states : x ∈ (b.state.insert s.name s).values.flatMap stateNames →
        x ∈ b.state.values.flatMap stateNames ∨ x ∈ stateNames s := by
      intro hinserted
      obtain ⟨s', hs', hname⟩ := mem_flatMap.1 hinserted
      rcases Table.mem_values_of_insert hs' with rfl | hs'
      · exact .inr hname
      · exact .inl (mem_flatMap.2 ⟨s', hs', hname⟩)
    simp only [Owner.enter, Owner.names] at hx ⊢
    grind
  | derived d =>
    have values : x ∈ (b.derived.insert d.name d).values.flatMap (·.names) →
        x ∈ b.derived.values.flatMap (·.names) ∨ x ∈ d.names := by
      intro hinserted
      obtain ⟨d', hd', hname⟩ := mem_flatMap.1 hinserted
      rcases Table.mem_values_of_insert hd' with rfl | hd'
      · exact .inr hname
      · exact .inl (mem_flatMap.2 ⟨d', hd', hname⟩)
    simp only [Owner.enter, Owner.names] at hx ⊢
    grind
  | ref r =>
    simp only [Owner.enter, Owner.names, Table.mem_keys_insert, mem_singleton] at hx ⊢
    grind
  | consumer u =>
    simp only [Owner.enter, Owner.names, flatMap_append, flatMap_singleton, mem_append] at hx ⊢
    grind
  | snippet s =>
    simp only [Owner.enter, Owner.names, map_append, map_singleton, mem_append] at hx ⊢
    grind
  | statement l =>
    simp only [Owner.enter, Owner.names, flatMap_append, flatMap_singleton, mem_append] at hx ⊢
    grind

/-- **Step.** What a move adds has names that are declared. -/
theorem givenNames_move (hmove : Move src patterns b b') (h : b.givenNames src ⊆ b.declared) :
    b'.givenNames src ⊆ b'.declared := by
  have entered (o : Owner) (reactive : List String) :
      (o.enter { b with declared := b.declared ++ o.names src, reactive }).givenNames src
        ⊆ b.declared ++ o.names src :=
    Subset.trans (givenNames_enter o _) (append_subset.2
      ⟨Subset.trans h (subset_append_left _ _), subset_append_right _ _⟩)
  cases hmove with
  | report r => exact h
  | effect e => exact h
  | keep l _ => exact entered (.statement l) b.reactive
  | claim o _ _ =>
    have declared (b₀ : Body) : (o.enter b₀).declared = b₀.declared := by cases o <;> rfl
    rw [declared]
    exact entered o _

/-- **Run.** So does what any number of moves add. -/
theorem givenNames_moves (hmoves : Moves src patterns b b') (h : b.givenNames src ⊆ b.declared) :
    b'.givenNames src ⊆ b'.declared := by
  induction hmoves with
  | refl => exact h
  | tail _ hmove ih => exact givenNames_move hmove ih

/-- The refs that a component receives are named as props. -/
theorem keys_refs_bodyOfProps (props : ComponentProps) (contexts : Table ContextDefinition) :
    (bodyOfProps props contexts).refs.keys ⊆ props.bindings.map (·.visibleName) := by
  have keys : ∀ (bs : List PropBinding) (t : Table RefBinding),
      (bs.foldl (fun t b => t.insert b.visibleName
        { name := b.visibleName, node := b.node, isForwarded := true }) t).keys
        ⊆ t.keys ++ bs.map (·.visibleName) := by
    intro bs
    induction bs with
    | nil => exact fun t => subset_append_left _ _
    | cons b bs ih =>
      refine fun t => Subset.trans (ih _) fun x hx => ?_
      simp only [mem_append, Table.mem_keys_insert, map_cons, mem_cons] at hx ⊢
      grind
  -- Only the bindable props are refs.
  refine Subset.trans (keys (props.bindings.filter (·.isBindable)) ∅) ?_
  exact append_subset.2 ⟨nil_subset _, map_subset _ (filter_subset_self _)⟩

theorem givenNames_bodyOfProps (props : ComponentProps) (contexts : Table ContextDefinition)
    (reports : List Report) :
    ({ bodyOfProps props contexts with reports } : Body).givenNames src
      ⊆ (bodyOfProps props contexts).declared := by
  have given : ({ bodyOfProps props contexts with reports } : Body).givenNames src
      = (bodyOfProps props contexts).refs.keys := by
    simp [Body.givenNames, bodyOfProps, EmptyCollection.emptyCollection]
  rw [given]
  exact Subset.trans (keys_refs_bodyOfProps props contexts) (subset_append_left _ _)

end Given

/-- What a component calls its props is one of its parameters. -/
theorem identifier_of_propsOf {c : Candidate} (hfunction : c.function.isFunction = true) :
    (nonEmpty? (propsOf src c).identifier).toList ⊆ bindingsWithin src c.function := by
  refine Subset.trans (nonEmpty_toList_subset _) fun x hx => ?_
  unfold propsOf at hx
  dsimp only at hx
  split at hx
  · cases hx
  · rename_i first rest hparameters
    split at hx
    · rename_i hidentifier
      have bound : x ∈ boundNames src first := by
        rw [← boundNames_patternOf, boundNames_identifier hidentifier]
        exact hx
      refine mem_flatMap.2 ⟨c.function, mem_preorder_self _, ?_⟩
      rw [ownBindings, if_pos hfunction, hparameters]
      exact mem_append_left _ (mem_flatMap.2 ⟨first, mem_cons_self, bound⟩)
    · split at hx <;> cases hx

/-- Parts bind no more than the whole. -/
theorem bindingsWithin_subset {n p : Node} (h : n ∈ p.preorder) :
    bindingsWithin src n ⊆ bindingsWithin src p := by
  intro x hx
  obtain ⟨d, hd, hx⟩ := mem_flatMap.1 hx
  exact mem_flatMap.2 ⟨d, preorder_trans hd h, hx⟩

variable {m : Module} {o : Options} {reports reports' : List Report} {model : Model}

namespace Stages

variable {choice : Choice} {top : ModuleLevel} {read : ComponentBody} {found : Progress}

/-- The names that are declared in the body are props, or they are declared in the module. -/
theorem declared_subset (h : Stages m o reports model reports' choice top read found) :
    read.body.declared ⊆
      model.props.bindings.map (·.visibleName) ++ bindingsWithin m.source m.root := by
  obtain ⟨hcomponents, hchosen⟩ := components_of_chooseComponent h.choosing
  obtain ⟨hfunction, isFunction⟩ := component_mem_preorder hcomponents hchosen
  -- Besides the props, a body declares what is bound at the places that it reads.
  have places : placeNames m.source (functionPlaces choice.chosen.function)
      ⊆ bindingsWithin m.source m.root := by
    intro x hx
    obtain ⟨n, hn, hx⟩ := mem_flatMap.1 hx
    have inside := h.inside_function (mem_append_left _ hn)
    rw [h.node] at inside
    exact bindingsWithin_subset (preorder_trans inside hfunction) hx
  have identifier : (nonEmpty? (propsOf m.source choice.chosen).identifier).toList
      ⊆ bindingsWithin m.source m.root :=
    Subset.trans (identifier_of_propsOf isFunction) (bindingsWithin_subset hfunction)
  refine Subset.trans h.reading.sourced.declared (append_subset.2 ⟨append_subset.2 ⟨?_, ?_⟩, ?_⟩)
  · rw [h.props]
    exact subset_append_left _ _
  · exact Subset.trans identifier (subset_append_right _ _)
  · exact Subset.trans places (subset_append_right _ _)

/-- The names that the parts of a model may use are declared in the module, or belong to the
component. -/
theorem visible_subset (h : Stages m o reports model reports' choice top read found) :
    visibleNames m.source model choice.chosen.name top.names read.body.declared ⊆
      topLevelNames m choice.candidates ++ model.props.bindings.map (·.visibleName)
        ++ [model.name] := by
  obtain ⟨patterns, moves⟩ := h.reading.moves
  have given := givenNames_moves moves (givenNames_bodyOfProps _ _ _)
  have bindings : bindingsWithin m.source m.root ⊆ topLevelNames m choice.candidates :=
    subset_append_right _ _
  have declared {x : String} (hx : x ∈ read.body.declared) :
      x ∈ topLevelNames m choice.candidates ++ model.props.bindings.map (·.visibleName)
        ++ [model.name] := by
    rcases mem_append.1 (h.declared_subset hx) with hx | hx
    · exact mem_append_left _ (mem_append_right _ hx)
    · exact mem_append_left _ (mem_append_left _ (bindings hx))
  have chosen : choice.chosen.name ∈ topLevelNames m choice.candidates :=
    mem_append_left _ (mem_append_left _
      (mem_map_of_mem (components_of_chooseComponent h.choosing).2))
  -- The places where setters are used are noted, but the names stay.
  have states {x : String} (hx : x ∈ model.state.values.flatMap fun s =>
      s.name :: (nonEmpty? s.setter).toList ++ (nonEmpty? s.dispatch).toList) :
      x ∈ read.body.state.values.flatMap stateNames := by
    rw [h.state] at hx
    obtain ⟨s, hs, hx⟩ := mem_flatMap.1 hx
    obtain ⟨s₀, hs₀, rfl⟩ := mem_values_setterSites.1 hs
    have names : x ∈ stateNames _ := hx
    rw [stateNames_withSites] at names
    exact mem_flatMap.2 ⟨s₀, hs₀, names⟩
  -- A context that is provided binds no name.
  have contexts {x : String} (hx : x ∈ model.contexts.flatMap fun u =>
      boundNamesOf m.source u.binding) :
      x ∈ read.body.consumers.flatMap fun u => boundNamesOf m.source u.binding := by
    rw [h.contexts] at hx
    obtain ⟨u, hu, hx⟩ := mem_flatMap.1 hx
    rcases mem_append.1 hu with hu | hu
    · exact mem_flatMap.2 ⟨u, hu, hx⟩
    · rw [(h.provision u hu).2] at hx
      cases hx
  have refs : model.refs.keys = read.body.refs.keys := by
    rw [h.refs, attachRefs, Table.keys_mapValues]
  have snippets : model.snippets.map (·.name) = read.body.snippets.map (·.name) :=
    (congrArg Names.snippets (h.names_eq h.snippets)).symm
  intro x hx
  simp only [visibleNames, h.derived, h.locals, refs, snippets, mem_append, or_assoc] at hx
  simp only [Body.givenNames, append_subset] at given
  obtain ⟨⟨⟨⟨⟨hstate, hderived⟩, hrefs⟩, hconsumers⟩, hlocals⟩, hsnippets⟩ := given
  rcases hx with hx | hx | hx | hx | hx | hx | hx | hx | hx
  · exact mem_append_left _ (mem_append_left _ (names_of_readTopLevel h.topLevel hx))
  · exact declared hx
  · rcases mem_cons.1 hx with rfl | hx
    · exact mem_append_right _ (mem_singleton.2 rfl)
    · rw [mem_singleton.1 hx]
      exact mem_append_left _ (mem_append_left _ chosen)
  · exact declared (hstate (states hx))
  · exact declared (hderived hx)
  · exact declared (hrefs hx)
  · exact declared (hconsumers (contexts hx))
  · exact declared (hlocals hx)
  · exact declared (hsnippets hx)

end Stages

/-! ### Reports -/

/-- Is the report one of an unknown name? -/
def isUnresolved (x : String) (r : Report) : Bool :=
  r.code == Code.unresolvedReference && r.construct == some x

/-- The name is declared nowhere in the module, and is no name of the component or of a prop. -/
structure Undeclared (m : Module) (model : Model) (x : String) : Prop where
  notGlobal : x ∉ globals
  notTopLevel : ∀ s ∈ m.statements, x ∉ statementNames m.source s
  notComponent : ∀ cs, m.components = .ok cs → x ∉ cs.map (·.name)
  notDeclared : x ∉ declaredIn m.source m.root
  notName : x ≠ model.name
  notProp : x ∉ model.props.bindings.map (·.visibleName)

/-- A name that nothing declares. -/
theorem undeclared_iff {x : String} : Undeclared m model x ↔
    x ∉ globals ∧ (∀ s ∈ m.statements, x ∉ statementNames m.source s) ∧
      (∀ cs ∈ m.components.toOption, x ∉ cs.map (·.name)) ∧ x ∉ declaredIn m.source m.root ∧
      x ≠ model.name ∧ x ∉ model.props.bindings.map (·.visibleName) := by
  have components : (∀ cs, m.components = .ok cs → x ∉ cs.map (·.name)) ↔
      ∀ cs ∈ m.components.toOption, x ∉ cs.map (·.name) := by
    cases m.components <;> simp [Except.toOption]
  rw [← components]
  constructor
  · intro h
    exact ⟨h.notGlobal, h.notTopLevel, h.notComponent, h.notDeclared, h.notName, h.notProp⟩
  · rintro ⟨notGlobal, notTopLevel, notComponent, notDeclared, notName, notProp⟩
    exact { notGlobal, notTopLevel, notComponent, notDeclared, notName, notProp }

instance (m : Module) (model : Model) (x : String) : Decidable (Undeclared m model x) :=
  decidable_of_iff _ undeclared_iff.symm

/-- The reports of one unknown name, given the reports that are tracked. -/
theorem filter_isUnresolved {known : List String} {uses : List ContextUse} {x : String}
    (h : reports'.filter isTracked = reports.filter isTracked
      ++ uses.map (hoistedReport m.source) ++ reportUnresolved m.source model known) :
    reports'.filter (isUnresolved x) = reports.filter (isUnresolved x)
      ++ ((unresolvedIn m.source known [] (checkedExpressions m.source model)).filter
        (m.source.text · == x)).map (unresolvedReport m.source) := by
  have sort (r : Report) (hr : isUnresolved x r = true) : isTracked r = true := by
    simpa [isTracked] using .inr (eq_of_beq (Bool.and_eq_true_iff.1 hr).1)
  have tracked := filter_filter_isTracked sort
  -- Warnings about providers are tracked as well, and they name nothing unknown.
  have warnings : (uses.map (hoistedReport m.source)).filter (isUnresolved x) = [] := by
    refine filter_eq_nil_iff.2 fun r hr => ?_
    obtain ⟨use, -, rfl⟩ := mem_map.1 hr
    exact Bool.eq_false_iff.1 rfl
  have unknown : (reportUnresolved m.source model known).filter (isUnresolved x)
      = ((unresolvedIn m.source known [] (checkedExpressions m.source model)).filter
        (m.source.text · == x)).map (unresolvedReport m.source) := by
    rw [reportUnresolved, filter_map]
    congr 1
  have named := congrArg (filter (isUnresolved x)) h
  rwa [filter_append, filter_append, tracked, tracked, warnings, unknown, append_nil] at named

/-- A name that is declared nowhere is unknown in just the checked expressions that use it. -/
theorem Stages.mem_unresolved_iff {choice : Choice} {top : ModuleLevel} {read : ComponentBody}
    {found : Progress} (h : Stages m o reports model reports' choice top read found) {x : String}
    (hx : Undeclared m model x) {u : Node × List String}
    (hu : u ∈ checkedExpressions m.source model) :
    x ∈ (unresolved m.source
        (visibleNames m.source model choice.chosen.name top.names read.body.declared) u.2 u.1).map
          m.source.text ↔ x ∈ namesUsed m.source u.1 := by
  obtain ⟨hcomponents, hchosen⟩ := components_of_chooseComponent h.choosing
  have function := (component_mem_preorder hcomponents hchosen).1
  rw [← h.node] at function
  obtain ⟨hchecked, hextra⟩ := h.checked_sound hu
  have notBindings : x ∉ bindingsWithin m.source m.root := fun hmem =>
    hx.notDeclared (mem_append_left _ hmem)
  -- The name is none of those that are visible in the whole component,
  have notVisible : x ∉ visibleNames m.source model choice.chosen.name top.names
      read.body.declared := by
    intro hmem
    have visible := h.visible_subset hmem
    simp only [topLevelNames, mem_append, mem_flatMap, mem_singleton, or_assoc] at visible
    rcases visible with hcomponent | ⟨s, hs, hname⟩ | hbinding | hprop | hname
    · exact hx.notComponent _ hcomponents hcomponent
    · exact hx.notTopLevel s hs hname
    · exact notBindings hbinding
    · exact hx.notProp hprop
    · exact hx.notName hname
  -- and it is bound neither around the expression nor inside it.
  have notExtra : x ∉ u.2 := fun hmem =>
    hx.notDeclared (declaredIn_subset function (hextra hmem))
  have notInside : x ∉ bindingsWithin m.source u.1 := fun hmem =>
    notBindings (bindingsWithin_subset
      (preorder_trans (h.checked_mem_preorder hchecked) function) hmem)
  rw [unresolved, mem_map_firstUnknown]
  simp [hx.notGlobal, notVisible, notExtra, notInside, namesUsed]

/-- **Unknown names.** A name that is declared nowhere is reported once if an expression that is
checked uses it, at such a use, and else not at all. -/
theorem unknown_names (h : analyze m o reports = .ok model reports') {x : String}
    (hx : Undeclared m model x) :
    ((∃ e, IsChecked m.source model e ∧ x ∈ namesUsed m.source e) →
      ∃ e r, IsChecked m.source model e ∧ r ∈ references m.source e ∧ m.source.text r = x ∧
        reports'.filter (isUnresolved x)
          = reports.filter (isUnresolved x) ++ [unresolvedReport m.source r]) ∧
    ((∀ e, IsChecked m.source model e → x ∉ namesUsed m.source e) →
      reports'.filter (isUnresolved x) = reports.filter (isUnresolved x)) := by
  obtain ⟨choice, top, read, found, stages⟩ := exists_stages h
  obtain ⟨fs, -, hreports⟩ := stages.exists_findings
  have named := filter_isUnresolved (x := x) hreports
  constructor
  · rintro ⟨e, hchecked, hused⟩
    obtain ⟨u, hu, rfl⟩ := stages.checked_full hchecked
    have unknown := mem_map_unresolvedIn_iff.2
      ⟨not_mem_nil, u, hu, (stages.mem_unresolved_iff hx hu).2 hused⟩
    obtain ⟨r, hr, rfl⟩ := mem_map.1 unknown
    -- The first use may stand in another expression than the given one.
    obtain ⟨u', hu', href⟩ := exists_of_mem_unresolvedIn hr
    refine ⟨u'.1, r, (stages.checked_sound hu').1, href, rfl, ?_⟩
    rw [named, filter_text_of_nodup nodup_unresolvedIn hr, map_singleton]
  · intro hunused
    have none : (unresolvedIn m.source (visibleNames m.source model choice.chosen.name top.names
        read.body.declared) [] (checkedExpressions m.source model)).filter
          (m.source.text · == x) = [] := by
      refine filter_eq_nil_iff.2 fun r hr heq => ?_
      have unknown := mem_map_of_mem (f := m.source.text) hr
      rw [eq_of_beq heq] at unknown
      obtain ⟨-, u, hu, hmem⟩ := mem_map_unresolvedIn_iff.1 unknown
      exact hunused u.1 (stages.checked_sound hu).1 ((stages.mem_unresolved_iff hx hu).1 hmem)
    rw [named, none, map_nil, append_nil]

section Sample

/-- An unknown name that is used by an attribute and between tags. -/
def unknownNameModule : Module :=
  appModule "function App() \x7b return <p title=\x7by\x7d>\x7by\x7d</p>; \x7d"
    [plain "return_statement" 17 45
      [plain "jsx_element" 24 44
        [plain "jsx_opening_element" 24 37
          [plain "identifier" 25 26 [] (some "name"),
           plain "jsx_attribute" 27 36
            [plain "property_identifier" 27 32 [],
             plain "jsx_expression" 33 36 [plain "identifier" 34 35 []]]] (some "open_tag"),
         plain "jsx_expression" 37 40 [plain "identifier" 38 39 []],
         plain "jsx_closing_element" 40 44 [plain "identifier" 42 43 [] (some "name")]
          (some "close_tag")]]]

/-- Of two uses of an unknown name, one is reported. -/
theorem unknown_names_of_two_uses : ∃ model reports,
    analyze unknownNameModule {} [] = .ok model reports ∧ Undeclared unknownNameModule model "y" ∧
    ∃ r, unknownNameModule.source.text r = "y" ∧
      reports.filter (isUnresolved "y") = [unresolvedReport unknownNameModule.source r] := by
  have test : endsIn (analyze unknownNameModule {}) [] (fun model _ =>
      decide (Undeclared unknownNameModule model "y") &&
        (returnedValues model.node).any fun v =>
          (ownExpressions unknownNameModule.source (modelNames model) v).any fun e =>
            decide ("y" ∈ namesUsed unknownNameModule.source e)) = true := by
    decide +kernel
  obtain ⟨model, reports, hmodel, hshape⟩ := exists_ok_of_endsIn test
  simp only [Bool.and_eq_true, decide_eq_true_eq, any_eq_true] at hshape
  obtain ⟨hundeclared, v, hv, e, he, hused⟩ := hshape
  have checked : IsChecked unknownNameModule.source model e :=
    .inr (.inr (.inr ⟨v, mem_append_right _ hv, v, .refl, he⟩))
  obtain ⟨e', r, -, -, htext, hreports⟩ := (unknown_names hmodel hundeclared).1 ⟨e, checked, hused⟩
  exact ⟨model, reports, hmodel, hundeclared, r, htext, hreports⟩

/-- An element with a component instance of an unknown name in it. -/
def unknownTagModule : Module :=
  appModule "function App() \x7b return <p><Missing/></p>; \x7d"
    [plain "return_statement" 17 42
      [plain "jsx_element" 24 41
        [plain "jsx_opening_element" 24 27 [plain "identifier" 25 26 [] (some "name")]
          (some "open_tag"),
         plain "jsx_self_closing_element" 27 37 [plain "identifier" 28 35 [] (some "name")],
         plain "jsx_closing_element" 37 41 [plain "identifier" 39 40 [] (some "name")]
          (some "close_tag")]]]

/-- The name is one of those that the returned value uses, and it is not reported. -/
theorem unreported_tag : ∃ model reports,
    analyze unknownTagModule {} [] = .ok model reports ∧
    Undeclared unknownTagModule model "Missing" ∧
    (∃ v ∈ returnedValues model.node, "Missing" ∈ namesUsed unknownTagModule.source v) ∧
    reports.filter (isUnresolved "Missing") = [] := by
  have test : endsIn (analyze unknownTagModule {}) [] (fun model reports => decide
      (Undeclared unknownTagModule model "Missing" ∧
        (∃ v ∈ returnedValues model.node, "Missing" ∈ namesUsed unknownTagModule.source v) ∧
        reports.filter (isUnresolved "Missing") = [])) = true := by
    decide +kernel
  obtain ⟨model, reports, hmodel, hshape⟩ := exists_ok_of_endsIn test
  exact ⟨model, reports, hmodel, of_decide_eq_true hshape⟩

end Sample

end Sveltify.Analysis
