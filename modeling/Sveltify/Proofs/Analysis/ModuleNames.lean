import Sveltify.Proofs.Analysis.BodyStatements

namespace Sveltify.Analysis

open Text Scope Component Render Node List

/-!
# The names of a module in its model

A top-level statement becomes an item of the model or a definition of contexts, unless it imports
from React, declares a component or is the default export.

* `HoldsNames`: the names of a statement are held by the top level;
* `Classified`: what one statement adds; `classified_classifyStatement`: every statement adds that;
* `Gathers`: what several statements add; `gathers_foldlM`: the run;
* `module_names_held`: which names of a module a model holds, and which components are reported.
  `declarator_beside_component_lost`: a name that is declared beside a component is lost.
-/

variable {src : Source}

/-! ### Single statements -/

/-- Does the statement import from React? -/
def isReactImport (src : Source) (s : Node) : Bool :=
  s.kind == "import_statement" && importsReact src s

/-- Is the statement the default export? -/
def isDefaultExport (s : Node) : Bool := s.kind == "export_statement" && s.hasToken "default"

/-- Every name that the statement declares is that of a context or is held by an item for the
statement. -/
def HoldsNames (src : Source) (s : Node) (contexts : Table ContextDefinition)
    (items : List ModuleItem) : Prop :=
  ∀ x ∈ statementNames src s, x ∈ contexts.keys ∨ ∃ item ∈ items, item.node = s ∧ x ∈ item.names

/-- The item is for a statement that neither imports from React nor is the default export, and has
its names. -/
structure IsItemOf (src : Source) (s : Node) (item : ModuleItem) : Prop where
  node : item.node = s
  notReact : isReactImport src s = false
  notDefault : isDefaultExport s = false
  names : item.names = statementNames src s

theorem HoldsNames.mono {s : Node} {contexts contexts' : Table ContextDefinition}
    {items items' : List ModuleItem} (h : HoldsNames src s contexts items)
    (hcontexts : contexts.keys ⊆ contexts'.keys) (hitems : items ⊆ items') :
    HoldsNames src s contexts' items' := by
  intro x hx
  rcases h x hx with hkey | ⟨item, hitem, hname⟩
  · exact .inl (hcontexts hkey)
  · exact .inr ⟨item, hitems hitem, hname⟩

/-- What a statement adds to the top level. -/
structure Classified (src : Source) (s : Node) (l l' : ModuleLevel) : Prop where
  keys : l.contexts.keys ⊆ l'.contexts.keys
  items : l.items ⊆ l'.items
  holds : isReactImport src s = false → isDefaultExport s = false →
    HoldsNames src s l'.contexts l'.items
  new : ∀ item ∈ l'.items, item ∈ l.items ∨ IsItemOf src s item

theorem keys_foldl_insert (found : List ContextDefinition) (t : Table ContextDefinition) :
    t.keys ⊆ (found.foldl (fun t d => t.insert d.key d) t).keys ∧
      found.map (·.key) ⊆ (found.foldl (fun t d => t.insert d.key d) t).keys := by
  induction found generalizing t with
  | nil => exact ⟨Subset.refl _, nil_subset _⟩
  | cons d found ih =>
    obtain ⟨old, new⟩ := ih (t.insert d.key d)
    have here : d.key ∈ (t.insert d.key d).keys := Table.mem_keys_insert.2 (.inl rfl)
    refine ⟨fun k hk => old (Table.mem_keys_insert.2 (.inr hk)), ?_⟩
    exact cons_subset.2 ⟨old here, new⟩

/-- A declarator that creates a context binds the key of the context and nothing else. -/
theorem boundNames_of_definedContext {d : Node} {c : ContextDefinition}
    (h : definedContext? src d = .ok (some c)) : boundNamesOf src (d.field? "name") = [c.key] := by
  obtain ⟨hook, -, hthen⟩ := except_bind_ok_iff.1 h
  split at hthen
  · rename_i name hname
    split at hthen
    · rename_i hidentifier
      cases hthen
      rw [Bool.and_eq_true] at hidentifier
      rw [hname, boundNamesOf, Option.map_some, boundNames_identifier hidentifier.2]
      rfl
    · cases hthen
  · cases hthen

/-- If all declarators create contexts, the names that they bind are the keys. -/
theorem names_of_all_contexts {declaration : Node} {found : List ContextDefinition}
    (h : definedContexts src declaration = .ok (found, true)) :
    declaratorNames src declaration ⊆ found.map (·.key) := by
  obtain ⟨results, hresults, hpure⟩ := except_bind_ok_iff.1 h
  obtain ⟨rfl, hall⟩ := Prod.mk.inj (Except.ok.inj hpure)
  have pairs := forall₂_of_except_mapM hresults
  -- As many contexts were found as there are declarators, so each of them made one.
  have complete : ∀ r ∈ results, (id r).isSome = true := by
    refine filterMap_length_eq_length.1 ?_
    rw [← pairs.length_eq]
    exact eq_of_beq (Bool.and_eq_true _ _ ▸ hall).2
  intro x hx
  obtain ⟨d, hd, hx⟩ := mem_flatMap.1 hx
  obtain ⟨result, hresult, hrun⟩ := (exists_of_forall₂ pairs).1 d hd
  obtain ⟨c, hc⟩ := Option.isSome_iff_exists.1 (complete result hresult)
  obtain rfl : result = some c := hc
  rw [boundNames_of_definedContext hrun, mem_singleton] at hx
  exact hx ▸ mem_map_of_mem (mem_filterMap.2 ⟨_, hresult, rfl⟩)

/-- A directive declares nothing. -/
theorem names_of_directive {s : Node} (h : isDirective src s = true) :
    statementNames src s = [] := by
  unfold isDirective at h
  rw [Bool.and_eq_true] at h
  have kind : s.kind = "expression_statement" := eq_of_beq h.1
  rw [statementNames, if_neg (by simp [kind]), if_neg (by simp [kind]),
    if_neg (by simp [isVariableDeclaration, kind]), kind]
  split
  · exact if_neg (by decide)
  · rfl

/-- The names of an exported declaration are those of the declaration. -/
theorem names_of_export {s declaration : Node} (hkind : s.kind = "export_statement")
    (h : s.field? "declaration" = some declaration) :
    statementNames src s = statementNames src declaration := by
  rw [statementNames, if_neg (by simp [hkind]), if_pos (by simp [hkind])]
  split
  · rename_i other hother
    rw [h] at hother
    cases hother
    rfl
  · rename_i hother
    rw [h] at hother
    cases hother

theorem names_of_export_list {s : Node} (hkind : s.kind = "export_statement")
    (h : s.field? "declaration" = none) : statementNames src s = [] := by
  rw [statementNames, if_neg (by simp [hkind]), if_pos (by simp [hkind])]
  split
  · rename_i hother
    rw [h] at hother
    cases hother
  · rfl

theorem names_of_variables {s : Node} (h : isVariableDeclaration s = true) :
    statementNames src s = declaratorNames src s := by
  have kinds := h
  simp only [isVariableDeclaration, Bool.or_eq_true, beq_iff_eq] at kinds
  rw [statementNames, if_neg, if_neg, if_pos h]
  · rcases kinds with kind | kind <;> simp [kind]
  · rcases kinds with kind | kind <;> simp [kind]

namespace Classified

variable {s : Node} {l : ModuleLevel}

/-- A statement may add nothing if it declares nothing or is passed over. -/
theorem nothing (h : isReactImport src s = false → isDefaultExport s = false →
    statementNames src s = []) : Classified src s l l where
  keys := Subset.refl _
  items := Subset.refl _
  holds hreact hdefault x hx := by
    rw [h hreact hdefault] at hx
    cases hx
  new _ hitem := .inl hitem

/-- A statement may add an item with its names, and contexts besides. -/
theorem item {found : List ContextDefinition} {kind : ModuleItemKind}
    (hreact : isReactImport src s = false) (hdefault : isDefaultExport s = false) :
    Classified src s l ((l.addContexts found).addItem kind s (statementNames src s)) where
  keys := (keys_foldl_insert found l.contexts).1
  items := subset_append_left _ _
  holds _ _ x hx := .inr ⟨_, mem_append_right _ (mem_singleton.2 rfl), rfl, hx⟩
  new item hitem := by
    rcases mem_append.1 hitem with hitem | hitem
    · exact .inl hitem
    · rw [mem_singleton.1 hitem]
      exact .inr ⟨rfl, hreact, hdefault, rfl⟩

/-- A statement may add contexts only, if they have all its names. -/
theorem contexts {found : List ContextDefinition}
    (h : statementNames src s ⊆ found.map (·.key)) : Classified src s l (l.addContexts found) where
  keys := (keys_foldl_insert found l.contexts).1
  items := Subset.refl _
  holds _ _ _ hx := .inl ((keys_foldl_insert found l.contexts).2 (h hx))
  new _ hitem := .inl hitem

end Classified

theorem addContexts_nil (l : ModuleLevel) : l.addContexts [] = l := by
  simp [ModuleLevel.addContexts]

/-- **Step.** What a top-level statement adds. -/
theorem classified_classifyStatement {s : Node} {l l' : ModuleLevel}
    (h : classifyStatement src l s = .ok l') : Classified src s l l' := by
  unfold classifyStatement at h
  by_cases himport : (s.kind == "import_statement") = true
  · have notDefault : isDefaultExport s = false := by
      simp [isDefaultExport, eq_of_beq himport]
    rw [if_pos himport] at h
    by_cases hreact : importsReact src s = true
    · rw [if_pos hreact] at h
      cases h
      refine .nothing fun hother => ?_
      simp [isReactImport, himport, hreact] at hother
    · rw [if_neg hreact] at h
      cases h
      have notReact : isReactImport src s = false := by simp [isReactImport, hreact]
      have added := @Classified.item src s l [] .importing notReact notDefault
      rwa [addContexts_nil] at added
  rw [if_neg himport] at h
  have notReact : isReactImport src s = false := by simp [isReactImport, himport]
  by_cases hdirective : isDirective src s = true
  · rw [if_pos hdirective] at h
    cases h
    exact .nothing fun _ _ => names_of_directive hdirective
  rw [if_neg hdirective] at h
  dsimp only at h
  by_cases hdefault : (s.kind == "export_statement" && s.hasToken "default") = true
  · rw [if_pos hdefault] at h
    cases h
    refine .nothing fun _ hother => ?_
    rw [isDefaultExport, hdefault] at hother
    cases hother
  rw [if_neg hdefault] at h
  have notDefault : isDefaultExport s = false := Bool.eq_false_iff.2 hdefault
  split at h
  · -- An export without a declaration has no names.
    rename_i hnone
    cases h
    have none : statementNames src s = [] := by
      split at hnone
      · exact names_of_export_list (eq_of_beq ‹_›) hnone
      · cases hnone
    have added := @Classified.item src s l [] .exported notReact notDefault
    rwa [addContexts_nil, none] at added
  · rename_i declaration hdeclaration
    have names : statementNames src s = statementNames src declaration := by
      split at hdeclaration
      · exact names_of_export (eq_of_beq ‹_›) hdeclaration
      · cases hdeclaration
        rfl
    split at h
    · rename_i hvariables
      obtain ⟨made, hmade, hrest⟩ := except_bind_ok_iff.1 h
      obtain ⟨found, isAll⟩ := made
      cases isAll with
      | true =>
        -- All declarators create contexts: there is no item, and the keys are all the names.
        cases hrest
        refine .contexts ?_
        rw [names, names_of_variables hvariables]
        exact names_of_all_contexts hmade
      | false =>
        cases hrest
        exact .item notReact notDefault
    · cases h
      exact .item notReact notDefault

/-! ### All statements -/

/-- What several statements add to the top level. -/
structure Gathers (src : Source) (ss : List Node) (l l' : ModuleLevel) : Prop where
  keys : l.contexts.keys ⊆ l'.contexts.keys
  items : l.items ⊆ l'.items
  holds : ∀ s ∈ ss, isReactImport src s = false → isDefaultExport s = false →
    HoldsNames src s l'.contexts l'.items
  new : ∀ item ∈ l'.items, item ∈ l.items ∨ ∃ s ∈ ss, IsItemOf src s item

/-- **Run.** What all statements add. -/
theorem gathers_foldlM {ss : List Node} {l l' : ModuleLevel}
    (h : ss.foldlM (classifyStatement src) l = .ok l') : Gathers src ss l l' := by
  -- By induction on the statements: what one of them adds is kept by all that follow.
  induction ss generalizing l with
  | nil =>
    cases h
    exact ⟨Subset.refl _, Subset.refl _, fun s hs => (not_mem_nil hs).elim, fun _ hi => .inl hi⟩
  | cons s ss ih =>
    rw [foldlM_cons] at h
    obtain ⟨l₁, hfirst, hrest⟩ := except_bind_ok_iff.1 h
    have first := classified_classifyStatement hfirst
    have rest := ih hrest
    refine ⟨Subset.trans first.keys rest.keys, Subset.trans first.items rest.items, ?_, ?_⟩
    · intro t ht hreact hdefault
      rcases mem_cons.1 ht with rfl | ht
      · exact (first.holds hreact hdefault).mono rest.keys rest.items
      · exact rest.holds t ht hreact hdefault
    · intro item hitem
      rcases rest.new item hitem with hitem | ⟨t, ht, hof⟩
      · rcases first.new item hitem with hitem | hof
        · exact .inl hitem
        · exact .inr ⟨s, mem_cons_self, hof⟩
      · exact .inr ⟨t, mem_cons_of_mem _ ht, hof⟩

/-! ### Modules -/

/-- Is the statement passed over: does it import from React, is it the default export, or does it
declare a component? -/
def isPassedOver (src : Source) (candidates : List Candidate) (s : Node) : Bool :=
  isReactImport src s || isDefaultExport s || candidates.any fun c => c.statement.same s

/-- The report on a component that is left out. -/
def extraReport (src : Source) (c : Candidate) : Report :=
  reportOn src .warning Code.extraComponent
    s!"only one component per file is converted; '{c.name}' was skipped and needs its own .svelte file"
    c.statement c.name

/-- A statement that exports a component by name is a default export. -/
theorem isDefaultExport_of_exportsByName {name : String} {s : Node}
    (h : exportsByName src name s = .ok true) : isDefaultExport s = true := by
  unfold exportsByName at h
  split at h
  · rename_i hdefault
    exact hdefault
  · cases h

/-- Statements of a numbered tree with the same number are the same. -/
theorem eq_of_same {m : Module} {tree s t : Node} (hroot : m.root = tree.numbered)
    (hs : s ∈ m.statements) (ht : t ∈ m.statements) (h : t.same s = true) : t = s := by
  have inside {n : Node} (hn : n ∈ m.statements) : n ∈ tree.numbered.preorder := by
    rw [← hroot]
    exact child_mem_preorder (namedChildren_subset hn) (mem_preorder_self _)
  exact inj_on_of_nodup_map (nodup_index_numbered tree) (inside ht) (inside hs) (eq_of_beq h)

/-- The top level of a module is read off the statements that are not passed over. -/
theorem gathers_readTopLevel {m : Module} {tree : Node} (hroot : m.root = tree.numbered)
    {chosen : Candidate} {candidates : List Candidate} (hchosen : chosen ∈ candidates)
    {top : ModuleLevel} (h : readTopLevel m chosen candidates = .ok top) :
    (∀ s ∈ m.statements, isPassedOver m.source candidates s = false →
      HoldsNames m.source s top.contexts top.items) ∧
    ∀ item ∈ top.items, item.node ∈ m.statements ∧
      isPassedOver m.source candidates item.node = false ∧
      item.names = statementNames m.source item.node := by
  obtain ⟨consumed, hconsumed, hfold⟩ := except_bind_ok_iff.1 h
  obtain ⟨exporting, hexporting, hpure⟩ := except_bind_ok_iff.1 hconsumed
  cases hpure
  have gathers := gathers_foldlM hfold
  constructor
  · intro s hs hpassed
    simp only [isPassedOver, Bool.or_eq_false_iff, any_eq_false] at hpassed
    obtain ⟨⟨hreact, hdefault⟩, hdeclares⟩ := hpassed
    refine gathers.holds s (mem_filter.2 ⟨hs, ?_⟩) hreact hdefault
    -- The statements that are skipped declare components or export one.
    simp only [Bool.not_eq_true', any_eq_false]
    intro t ht hsame
    rcases mem_append.1 ht with ht | ht
    · rcases mem_cons.1 ht with rfl | ht
      · exact hdeclares chosen hchosen hsame
      · obtain ⟨hmem, hexports⟩ := of_mem_except_filterM hexporting ht
        obtain rfl := eq_of_same hroot hs hmem hsame
        rw [isDefaultExport_of_exportsByName hexports] at hdefault
        cases hdefault
    · obtain ⟨c, hc, rfl⟩ := mem_map.1 ht
      exact hdeclares c hc hsame
  · intro item hitem
    rcases gathers.new item hitem with hold | ⟨s, hs, hof⟩
    · cases hold
    obtain ⟨hmem, hkept⟩ := mem_filter.1 hs
    rw [hof.node]
    refine ⟨hmem, ?_, hof.names⟩
    simp only [isPassedOver, hof.notReact, hof.notDefault, Bool.false_or, any_eq_false]
    intro c hc hsame
    simp only [Bool.not_eq_true', any_eq_false] at hkept
    exact hkept _ (mem_append_right _ (mem_map_of_mem hc)) hsame

variable {m : Module} {o : Options} {reports reports' : List Report} {model : Model}

theorem Stages.reports_of_choice {choice : Choice} {top : ModuleLevel} {read : ComponentBody}
    {found : Progress} (h : Stages m o reports model reports' choice top read found) :
    choiceReports m.source choice ⊆ reports' := by
  obtain ⟨patterns, hmoves⟩ := h.reading.moves
  have read := reports_subset_of_moves hmoves
  exact Subset.trans (Subset.trans (subset_append_right _ _) read) h.reports_subset

/-- **Names of a module.** The names of every top-level statement that is not passed over are held
by an item or by contexts of the model, and every item is for such a statement. Every component of
another statement than that of the chosen one is reported under its name. -/
theorem module_names_held {tree : Node} (hroot : m.root = tree.numbered)
    (h : analyze m o reports = .ok model reports') :
    ∃ choice, chooseComponent m o.sourceName = .ok choice ∧
      (∀ s ∈ m.statements, isPassedOver m.source choice.candidates s = false →
        HoldsNames m.source s model.contextDefinitions model.moduleItems) ∧
      (∀ item ∈ model.moduleItems, item.node ∈ m.statements ∧
        isPassedOver m.source choice.candidates item.node = false ∧
        item.names = statementNames m.source item.node) ∧
      ∀ c ∈ choice.candidates, c.statement.same choice.chosen.statement = false →
        extraReport m.source c ∈ reports' := by
  obtain ⟨choice, top, read, found, stages, -, hitems⟩ := exists_run h
  have hchosen := (components_of_chooseComponent stages.choosing).2
  have contexts : model.contextDefinitions = top.contexts := by
    rw [stages.contextDefinitions, stages.reading.sourced.contexts]
    rfl
  obtain ⟨holds, items⟩ := gathers_readTopLevel hroot hchosen stages.topLevel
  refine ⟨choice, stages.choosing, ?_, ?_, fun c hc hother => ?_⟩
  · rw [contexts, hitems]
    exact holds
  · rw [hitems]
    exact items
  · refine stages.reports_of_choice (mem_append_right _ (mem_map.2 ⟨c, ?_, rfl⟩))
    exact mem_filter.2 ⟨hc, by simp [hother]⟩

section Sample

/-- A constant and two components, each in a statement of its own. -/
def twoComponentsModule : Module where
  source := .ofText "App.jsx"
    ("const limit = 3;\nfunction App() \x7b return <p/>; \x7d\n"
      ++ "function Other() \x7b return <b/>; \x7d\n")
  root :=
    .numbered <| plain "program" 0 83
      [plain "lexical_declaration" 0 16
        [plain "variable_declarator" 6 15
          [plain "identifier" 6 11 [] (some "name"), plain "number" 14 15 [] (some "value")]],
       plain "function_declaration" 17 48
        [plain "identifier" 26 29 [] (some "name"),
         plain "formal_parameters" 29 31 [] (some "parameters"),
         plain "statement_block" 32 48
          [plain "return_statement" 34 46
            [plain "jsx_self_closing_element" 41 45 [plain "identifier" 42 43 [] (some "name")]]]
          (some "body")],
       plain "function_declaration" 49 82
        [plain "identifier" 58 63 [] (some "name"),
         plain "formal_parameters" 63 65 [] (some "parameters"),
         plain "statement_block" 66 82
          [plain "return_statement" 68 80
            [plain "jsx_self_closing_element" 75 79 [plain "identifier" 76 77 [] (some "name")]]]
          (some "body")]]
  dialect := .javascript

/-- The constant is held by an item, and the second component is reported. -/
theorem module_names_held_of_two : ∃ model reports,
    analyze twoComponentsModule {} [] = .ok model reports ∧
    (∃ item ∈ model.moduleItems, "limit" ∈ item.names) ∧
    ∃ c, c.name = "Other" ∧ extraReport twoComponentsModule.source c ∈ reports := by
  have test : endsIn (analyze twoComponentsModule {}) [] (fun model _ =>
      decide (model.contextDefinitions.keys = []) &&
      (chooseComponent twoComponentsModule ({} : Options).sourceName).toOption.any fun choice =>
        (twoComponentsModule.statements.any fun s =>
          !isPassedOver twoComponentsModule.source choice.candidates s
            && decide ("limit" ∈ statementNames twoComponentsModule.source s))
        && choice.candidates.any fun c =>
          c.name == "Other" && !c.statement.same choice.chosen.statement) = true := by
    decide +kernel
  obtain ⟨model, reports, hmodel, hshape⟩ := exists_ok_of_endsIn test
  obtain ⟨choice, hchoice, holds, -, reported⟩ := module_names_held rfl hmodel
  rw [hchoice] at hshape
  simp only [Except.toOption, Option.any_some, Bool.and_eq_true, decide_eq_true_eq, any_eq_true,
    Bool.not_eq_true', beq_iff_eq] at hshape
  obtain ⟨hkeys, ⟨s, hs, hpassed, hlimit⟩, c, hc, hname, hother⟩ := hshape
  refine ⟨model, reports, hmodel, ?_, c, hname, reported c hc hother⟩
  rcases holds s hs hpassed "limit" hlimit with hkey | ⟨item, hitem, -, hmem⟩
  · rw [hkeys] at hkey
    cases hkey
  · exact ⟨item, hitem, hmem⟩

/-- A constant that is declared beside a component, by one statement. -/
def sharedStatementModule : Module where
  source := .ofText "App.jsx" "const limit = 3, App = () => <p/>;\n"
  root :=
    .numbered <| plain "program" 0 35
      [plain "lexical_declaration" 0 34
        [plain "variable_declarator" 6 15
          [plain "identifier" 6 11 [] (some "name"), plain "number" 14 15 [] (some "value")],
         plain "variable_declarator" 17 33
          [plain "identifier" 17 20 [] (some "name"),
           plain "arrow_function" 23 33
            [plain "formal_parameters" 23 25 [] (some "parameters"),
             plain "jsx_self_closing_element" 29 33 [plain "identifier" 30 31 [] (some "name")]
              (some "body")]
            (some "value")]]]
  dialect := .javascript

/-- The constant is not the component, no context, held by no item, and nothing is reported. -/
theorem declarator_beside_component_lost : ∃ model reports,
    analyze sharedStatementModule {} [] = .ok model reports ∧
    (∃ s ∈ sharedStatementModule.statements,
      isReactImport sharedStatementModule.source s = false ∧
      "limit" ∈ statementNames sharedStatementModule.source s) ∧
    model.name = "App" ∧ "limit" ∉ model.contextDefinitions.keys ∧
    (∀ item ∈ model.moduleItems, "limit" ∉ item.names) ∧ reports = [] := by
  have test : endsIn (analyze sharedStatementModule {}) [] (fun model reports => decide
      ((∃ s ∈ sharedStatementModule.statements,
        isReactImport sharedStatementModule.source s = false ∧
        "limit" ∈ statementNames sharedStatementModule.source s) ∧
      model.name = "App" ∧ "limit" ∉ model.contextDefinitions.keys ∧
      (∀ item ∈ model.moduleItems, "limit" ∉ item.names)) && reports.isEmpty) = true := by
    decide +kernel
  obtain ⟨model, reports, hmodel, hshape⟩ := exists_ok_of_endsIn test
  rw [Bool.and_eq_true, decide_eq_true_eq, List.isEmpty_iff] at hshape
  obtain ⟨⟨hs, hname, hkeys, hitems⟩, hreports⟩ := hshape
  exact ⟨model, reports, hmodel, hs, hname, hkeys, hitems, hreports⟩

end Sample

end Sveltify.Analysis
