import Sveltify.Proofs.Analysis.Reading

namespace Sveltify.Analysis

open Text Scope Component Render Node List

/-!
# What the top level of a module gives

* `component_mem_preorder`: a component of a module is a function in its tree;
* `components_of_chooseComponent`: the component that is chosen is one of the module's;
* `names_of_readTopLevel`: the names of the top level are those of the components, of the statements
  and of declarations in the tree;
* `appModule`: a module with one component, for samples.
-/

variable {src : Source}

/-! ### Components -/

/-- The component is a function in the tree. -/
def IsFunctionIn (n : Node) (c : Candidate) : Prop :=
  c.function ∈ n.preorder ∧ c.function.isFunction = true

/-- A function of a part is one of the whole. -/
theorem IsFunctionIn.mono {m n : Node} {c : Candidate} (h : IsFunctionIn m c)
    (hm : m ∈ n.preorder) : IsFunctionIn n c :=
  ⟨preorder_trans h.1 hm, h.2⟩

/-- Arguments stand in the call. -/
theorem argumentOf_mem_preorder {n a : Node} (h : a ∈ Hook.argumentsOf n) : a ∈ n.preorder := by
  unfold Hook.argumentsOf at h
  cases harguments : n.field? "arguments" with
  | none => simp [harguments] at h
  | some list =>
    rw [harguments] at h
    exact child_mem_preorder (namedChildren_subset h)
      (field_mem_preorder harguments (mem_preorder_self n))

/-- What is wrapped stands in the wrapper. -/
theorem stripWrappers_mem_preorder {n f : Node} {wrappers : List String}
    (h : stripWrappers src n = .ok (some f, wrappers)) : f ∈ n.preorder := by
  fun_induction stripWrappers src n generalizing wrappers with
  | case1 => cases h
  | case2 => cases h
  | case3 n _ name _ _ argument hargument inner hinner ih =>
    obtain ⟨⟨target, rest⟩, hstripped, hpure⟩ := except_bind_ok_iff.1 h
    cases hpure
    exact preorder_trans (ih hstripped) (preorder_trans (bare_mem_preorder hinner)
      (argumentOf_mem_preorder (mem_of_head? hargument)))
  | case4 => cases h
  | case5 => cases h
  | case6 =>
    cases h
    exact mem_preorder_self _

/-- So does the function inside. -/
theorem innerFunction_mem_preorder {n f : Node} {wrappers : List String}
    (h : innerFunction src n = .ok (some f, wrappers)) : f ∈ n.preorder := by
  obtain ⟨m, hneed, hstripped⟩ := except_bind_ok_iff.1 h
  exact preorder_trans (stripWrappers_mem_preorder hstripped)
    (bare_mem_preorder (except_need_ok_iff.1 hneed))

/-- A candidate has the function that it was made for. -/
theorem function_of_candidate {name : Option String} {function : Option Node} {statement n : Node}
    {wrappers : List String} {isDefault : Bool} {typeText : Option String} {c : Candidate}
    (h : candidate? src name function statement wrappers isDefault typeText = some c)
    (hn : ∀ f, function = some f → f ∈ n.preorder) : IsFunctionIn n c := by
  unfold candidate? at h
  split at h
  · cases h
  · rename_i f
    split at h
    · rename_i hfunction
      dsimp only at h
      split at h
      · cases h
      · split at h
        · cases h
          exact ⟨hn f rfl, hfunction⟩
        · cases h
    · cases h

/-- Candidates of a declaration stand in it. -/
theorem function_of_declaration {declaration statement : Node} {cs : List Candidate}
    (h : declarationCandidates src declaration statement = .ok cs) :
    ∀ c ∈ cs, IsFunctionIn declaration c := by
  obtain ⟨found, hfound, hpure⟩ := except_bind_ok_iff.1 h
  cases hpure
  intro c hc
  obtain ⟨result, hresult, hc⟩ := mem_filterMap.1 hc
  obtain rfl : result = some c := hc
  -- Each candidate comes from one declarator.
  obtain ⟨declarator, hdeclarator, hrun⟩ := exists_of_mem_except_mapM hfound hresult
  have inside : declarator ∈ declaration.preorder :=
    child_mem_preorder (namedChildren_subset hdeclarator) (mem_preorder_self _)
  unfold declaratorCandidate? at hrun
  split at hrun
  · split at hrun
    · rename_i name value hname hvalue
      split at hrun
      · obtain ⟨stripped, hstripped, hpure⟩ := except_bind_ok_iff.1 hrun
        obtain ⟨function, wrappers⟩ := stripped
        refine (function_of_candidate (Except.ok.inj hpure) fun f hf => ?_).mono inside
        rw [hf] at hstripped
        exact preorder_trans (innerFunction_mem_preorder hstripped)
          (field_mem_preorder hvalue (mem_preorder_self _))
      · cases hrun
    · cases hrun
  · cases hrun

/-- So do those of an exported value. -/
theorem function_of_exportedValue {statement value : Node} {found : Found}
    (h : exportedValue src statement value = .ok found) :
    ∀ c ∈ found.candidates, IsFunctionIn value c := by
  intro c hc
  obtain ⟨stripped, hstripped, hthen⟩ := except_bind_ok_iff.1 h
  obtain ⟨function, wrappers⟩ := stripped
  dsimp only at hthen
  split at hthen
  · cases hthen
    cases hc
  split at hthen
  · cases hthen
    refine function_of_candidate (Option.mem_toList.1 hc) fun f hf => ?_
    cases hf
    exact innerFunction_mem_preorder hstripped
  split at hthen
  all_goals
    cases hthen
    cases hc

/-- So do those of a statement. -/
theorem function_of_statement {statement : Node} {found : Found}
    (h : statementComponents src statement = .ok found) :
    ∀ c ∈ found.candidates, IsFunctionIn statement c := by
  intro c hc
  -- Functions and variables are declared by the statement itself or by what it exports.
  have declared {f : Node} {isDefault : Bool} (inside : f ∈ statement.preorder)
      (hc : c ∈ (candidate? src none (some f) statement [] isDefault none).toList) :
      IsFunctionIn statement c := by
    refine function_of_candidate (Option.mem_toList.1 hc) fun f' hf' => ?_
    cases hf'
    exact inside
  unfold statementComponents at h
  split at h
  · cases h
    exact declared (mem_preorder_self _) hc
  split at h
  · obtain ⟨cs, hcs, hpure⟩ := except_bind_ok_iff.1 h
    cases hpure
    exact function_of_declaration hcs c hc
  split at h
  · dsimp only at h
    split at h
    · rename_i declaration hdeclaration
      have inside := field_mem_preorder hdeclaration (mem_preorder_self statement)
      split at h
      · cases h
        exact declared inside hc
      split at h
      · obtain ⟨cs, hcs, hpure⟩ := except_bind_ok_iff.1 h
        cases hpure
        exact (function_of_declaration hcs c hc).mono inside
      · cases h
        cases hc
    · rename_i value _ hvalue
      split at h
      · exact (function_of_exportedValue h c hc).mono
          (field_mem_preorder hvalue (mem_preorder_self statement))
      · cases h
        cases hc
    · cases h
      cases hc
  · cases h
    cases hc

/-- An export keeps the functions. -/
theorem function_of_markExported {name : String} {wrappers : List String} {cs : List Candidate}
    {c : Candidate} (h : c ∈ markExported name wrappers cs) :
    ∃ d ∈ cs, d.function = c.function := by
  induction cs with
  | nil => cases h
  | cons d cs ih =>
    rw [markExported] at h
    split at h
    · rcases mem_cons.1 h with rfl | h
      · exact ⟨d, mem_cons_self, rfl⟩
      · exact ⟨c, mem_cons_of_mem _ h, rfl⟩
    · rcases mem_cons.1 h with rfl | h
      · exact ⟨c, mem_cons_self, rfl⟩
      · obtain ⟨d', hd', heq⟩ := ih h
        exact ⟨d', mem_cons_of_mem _ hd', heq⟩

/-- A component of a module is a function in its tree. -/
theorem component_mem_preorder {m : Module} {cs : List Candidate} (h : m.components = .ok cs)
    {c : Candidate} (hc : c ∈ cs) : IsFunctionIn m.root c := by
  obtain ⟨found, hfound, hpure⟩ := except_bind_ok_iff.1 h
  have ofFound {d : Candidate} (hd : d ∈ found.flatMap (·.candidates)) : IsFunctionIn m.root d := by
    obtain ⟨result, hresult, hd⟩ := mem_flatMap.1 hd
    obtain ⟨statement, hstatement, hrun⟩ := exists_of_mem_except_mapM hfound hresult
    exact (function_of_statement hrun d hd).mono
      (child_mem_preorder (namedChildren_subset hstatement) (mem_preorder_self _))
  dsimp only at hpure
  split at hpure
  · cases hpure
    -- To be exported by a later statement changes a component, but not its function.
    obtain ⟨d, hd, heq⟩ := function_of_markExported hc
    rw [IsFunctionIn, ← heq]
    exact ofFound hd
  · cases hpure
    exact ofFound hc

/-- The component that is chosen is one of the module's. -/
theorem components_of_chooseComponent {m : Module} {sourceName : String} {choice : Choice}
    (h : chooseComponent m sourceName = .ok choice) :
    m.components = .ok choice.candidates ∧ choice.chosen ∈ choice.candidates := by
  obtain ⟨cs, hcs, hselect⟩ := except_bind_ok_iff.1 h
  split at hselect
  · rename_i chosen hchosen
    cases hselect
    refine ⟨hcs, ?_⟩
    rcases Option.or_eq_some_iff.1 hchosen with hexported | ⟨-, hfirst⟩
    · exact mem_of_find?_eq_some hexported
    · exact mem_of_head? hfirst
  · cases hselect

/-! ### Names -/

/-- Contexts are bound where they are created. -/
theorem keys_of_definedContexts {declaration : Node} {found : List ContextDefinition} {isAll : Bool}
    (h : definedContexts src declaration = .ok (found, isAll)) :
    found.map (·.key) ⊆ bindingsWithin src declaration := by
  obtain ⟨results, hresults, hpure⟩ := except_bind_ok_iff.1 h
  cases hpure
  intro x hx
  obtain ⟨d, hd, rfl⟩ := mem_map.1 hx
  obtain ⟨result, hresult, hd⟩ := mem_filterMap.1 hd
  obtain rfl : result = some d := hd
  obtain ⟨declarator, hdeclarator, hrun⟩ := exists_of_mem_except_mapM hresults hresult
  obtain ⟨hnamed, hkind⟩ := mem_filter.1 hdeclarator
  have inside : declarator ∈ declaration.preorder :=
    child_mem_preorder (namedChildren_subset hnamed) (mem_preorder_self _)
  apply boundNamesOf_subset_bindingsWithin inside (eq_of_beq hkind)
  obtain ⟨hook, -, hthen⟩ := except_bind_ok_iff.1 hrun
  split at hthen
  · rename_i name hname
    split at hthen
    · rename_i hidentifier
      cases hthen
      rw [Bool.and_eq_true] at hidentifier
      simp [hname, boundNamesOf, boundNames_identifier hidentifier.2]
    · cases hthen
  · cases hthen

/-- The names that the top level may give. -/
def topLevelNames (m : Module) (cs : List Candidate) : List String :=
  cs.map (·.name) ++ m.statements.flatMap (statementNames m.source)
    ++ bindingsWithin m.source m.root

/-- A statement adds names that it declares. -/
theorem names_of_classifyStatement {m : Module} {cs : List Candidate} {l l' : ModuleLevel}
    {statement : Node} (hstatement : statement ∈ m.statements)
    (hl : l.names ⊆ topLevelNames m cs)
    (h : classifyStatement m.source l statement = .ok l') : l'.names ⊆ topLevelNames m cs := by
  -- A statement may add its own names, and the keys of the contexts that it defines.
  have own : statementNames m.source statement ⊆ topLevelNames m cs := fun x hx =>
    mem_append_left _ (mem_append_right _ (mem_flatMap.2 ⟨statement, hstatement, hx⟩))
  have inside : statement ∈ m.root.preorder :=
    child_mem_preorder (namedChildren_subset hstatement) (mem_preorder_self _)
  unfold classifyStatement at h
  split at h
  · split at h
    · cases h
      exact hl
    · cases h
      exact append_subset.2 ⟨hl, own⟩
  split at h
  · cases h
    exact hl
  dsimp only at h
  split at h
  · cases h
    exact hl
  split at h
  · cases h
    exact append_subset.2 ⟨hl, nil_subset _⟩
  · rename_i declaration hdeclaration
    have inDeclaration : declaration ∈ m.root.preorder := by
      split at hdeclaration
      · exact field_mem_preorder hdeclaration inside
      · cases hdeclaration
        exact inside
    have added {found : List ContextDefinition} (h : found.map (·.key) ⊆ topLevelNames m cs) :
        l.names ++ found.map (·.key) ⊆ topLevelNames m cs := append_subset.2 ⟨hl, h⟩
    split at h
    · obtain ⟨⟨found, isAll⟩, hfound, hrest⟩ := except_bind_ok_iff.1 h
      have keys : found.map (·.key) ⊆ topLevelNames m cs := fun x hx => by
        obtain ⟨d, hd, hx⟩ := mem_flatMap.1 (keys_of_definedContexts hfound hx)
        exact mem_append_right _ (mem_flatMap.2 ⟨d, preorder_trans hd inDeclaration, hx⟩)
      dsimp only at hrest
      split at hrest
      · cases hrest
        exact added keys
      · cases hrest
        exact append_subset.2 ⟨added keys, own⟩
    · cases h
      exact append_subset.2 ⟨added (nil_subset _), own⟩

/-- The names are those of the module. -/
theorem names_of_readTopLevel {m : Module} {chosen : Candidate} {cs : List Candidate}
    {top : ModuleLevel} (h : readTopLevel m chosen cs = .ok top) :
    top.names ⊆ topLevelNames m cs := by
  obtain ⟨consumed, -, hfold⟩ := except_bind_ok_iff.1 h
  refine except_foldlM_keeps (I := fun l => l.names ⊆ topLevelNames m cs) (fun ha hl hrun => ?_)
    ?_ hfold
  · exact names_of_classifyStatement (mem_filter.1 ha).1 hl hrun
  · exact Subset.trans (subset_append_left _ _) (subset_append_left _ _)

/-! ### A module for samples -/

/-- A component without parameters and with the given statements, which stand from the place 17
on. -/
def appModule (text : String) (statements : List Node) : Module where
  source := .ofText "App.jsx" text
  root :=
    .numbered <| plain "program" 0 100
      [plain "function_declaration" 0 99
        [plain "identifier" 9 12 [] (some "name"),
         plain "formal_parameters" 12 14 [] (some "parameters"),
         plain "statement_block" 15 99 statements (some "body")]]
  dialect := .javascript

end Sveltify.Analysis
