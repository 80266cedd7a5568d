import Sveltify.Proofs.Analysis.Collected
import Sveltify.Proofs.Analysis.TopLevel

namespace Sveltify.Analysis

open Text Scope Component Render Node List

/-!
# Providers and styles of a model

Providers and styles are collected while the pieces of a component are built, and a piece that is
built twice is collected twice. Whether a provider stands under a condition is decided inside its
piece, before the pieces are put together.

* `collected_once`: providers and styles come from different elements, but for those in content that
  is built twice; there is one warning for each provider that is taken to stand under a condition;
* `provided_twice`: the lone child of a component instance is collected twice;
* `hoisted_reports`: a provider that is shown is one of the model's, and it is taken to stand under
  a condition just if it does so inside the value that is returned;
* `early_provider_unreported`: so a provider that is returned early gives no warning.
-/

variable {m : Module} {o : Options} {reports reports' : List Report} {model : Model}
  {fs : List Finding}

/-- Is the report a warning that a provider stands under a condition? -/
def isHoisted (r : Report) : Bool := r.code == Code.contextProviderHoisted

/-- Is the JSX element a `style` element? -/
def isStyle (src : Source) (names : Names) (n : Node) : Bool := sortOf src names n == .style

/-- No node of the sort stands in content that is built twice. -/
def OutsideRepeated (src : Source) (names : Names) (sort : Node → Bool) (n : Node) : Prop :=
  ∀ p ∈ n.preorder, ∀ e ∈ repeated? src names p, ∀ x ∈ e.preorder, sort x = false

instance (src : Source) (names : Names) (sort : Node → Bool) (n : Node) :
    Decidable (OutsideRepeated src names sort n) :=
  inferInstanceAs (Decidable
    (∀ p ∈ n.preorder, ∀ e ∈ repeated? src names p, ∀ x ∈ e.preorder, sort x = false))

/-! ### Nodes of the function -/

/-- The nodes of the component's function have different numbers. -/
theorem Stages.nodup_index {choice : Choice} {top : ModuleLevel} {read : ComponentBody}
    {found : Progress} (h : Stages m o reports model reports' choice top read found) {tree : Node}
    (hroot : m.root = tree.numbered) : (model.node.preorder.map index).Nodup := by
  obtain ⟨hcomponents, hchosen⟩ := components_of_chooseComponent h.choosing
  have inside := (component_mem_preorder hcomponents hchosen).1
  rw [h.node]
  rw [hroot] at inside
  have apart := Apart.of_mem_preorder inside preorder gathers_preorder
  rw [flatMap_singleton, flatMap_singleton] at apart
  exact nodup_map_of_subperm apart (nodup_index_numbered tree)

/-- Nodes of a sort outside repeated content are listed once, and have different numbers. -/
theorem nodup_of_outsideRepeated {src : Source} {names : Names} {sort : Node → Bool} {n : Node}
    {nodes : List Node} (hnodes : nodes <+~ (sites src names n).filter sort)
    (hindex : (n.preorder.map index).Nodup) (h : OutsideRepeated src names sort n) :
    (nodes.map index).Nodup := by
  -- Outside of repeated content every node is listed as often as in the tree, that is once.
  rw [filter_sites h] at hnodes
  exact nodup_map_of_subperm (hnodes.trans filter_sublist.subperm) hindex

/-! ### Where collected elements stand -/

theorem Collects.places (h : Collects m.source model fs) :
    fs.map Finding.node <+~ sites m.source (modelNames model) model.node := by
  have inside := apart_expressionSites h.apart _ (gathers_sites m.source (modelNames model))
  rw [flatMap_singleton] at inside
  exact h.parts.account.places.trans inside

theorem map_filterMap_sublist {α β γ : Type} {g : α → Option β} {f : α → γ} {k : β → γ}
    (h : ∀ a b, g a = some b → k b = f a) (l : List α) : (l.filterMap g).map k <+ l.map f := by
  induction l with
  | nil => exact .slnil
  | cons a l ih =>
    cases ha : g a with
    | none =>
      rw [filterMap_cons_none ha, map_cons]
      exact ih.cons _
    | some b =>
      rw [filterMap_cons_some ha, map_cons, map_cons, h a b ha]
      exact ih.cons_cons _

/-- Findings of one sort stand at sites of that sort. -/
theorem Collects.places_of_sort (h : Collects m.source model fs) {β : Type} {g : Finding → Option β}
    {k : β → Node} (hg : ∀ f b, g f = some b → k b = f.node) {sort : Node → Bool}
    (hsort : ∀ b ∈ fs.filterMap g, sort (k b) = true) :
    (fs.filterMap g).map k <+~ (sites m.source (modelNames model) model.node).filter sort := by
  have listed := ((map_filterMap_sublist hg fs).subperm.trans h.places).filter sort
  have all : ((fs.filterMap g).map k).filter sort = (fs.filterMap g).map k :=
    filter_eq_self.2 fun n hn => by
      obtain ⟨b, hb, rfl⟩ := mem_map.1 hn
      exact hsort b hb
  rwa [all] at listed

theorem Collects.provider_places (h : Collects m.source model fs) :
    (provided model).map (·.node) <+~ (sites m.source (modelNames model) model.node).filter
      (isProvider m.source (modelNames model)) := by
  rw [h.providers]
  refine h.places_of_sort (fun f use hf => ?_) fun use huse => ?_
  · rw [Finding.provider?_eq_some.1 hf]
    rfl
  · have sound := h.parts.account.sound _ (Finding.mem_providers.1 huse)
    rw [isProvider, sound.2]

theorem Collects.style_places (h : Collects m.source model fs) :
    fs.filterMap Finding.style? <+~ (sites m.source (modelNames model) model.node).filter
      (isStyle m.source (modelNames model)) := by
  have places : (fs.filterMap Finding.style?).map id <+~
      (sites m.source (modelNames model) model.node).filter
        (isStyle m.source (modelNames model)) := by
    refine h.places_of_sort (fun f n hf => ?_) fun n hn => ?_
    · rw [Finding.style?_eq_some.1 hf]
      rfl
    · have sound := h.parts.account.sound _ (Finding.mem_styles.1 hn)
      exact beq_iff_eq.2 sound
  rwa [map_id] at places

/-- The warnings about providers, given the reports that are tracked. -/
theorem filter_isHoisted {known : List String} {uses : List ContextUse}
    (h : reports'.filter isTracked = reports.filter isTracked
      ++ uses.map (hoistedReport m.source) ++ reportUnresolved m.source model known) :
    reports'.filter isHoisted = reports.filter isHoisted ++ uses.map (hoistedReport m.source) := by
  have sort (r : Report) (hr : isHoisted r = true) : isTracked r = true := by
    simpa [isTracked] using .inl (eq_of_beq hr)
  have tracked := filter_filter_isTracked sort
  have warnings : (uses.map (hoistedReport m.source)).filter isHoisted
      = uses.map (hoistedReport m.source) := by
    refine filter_eq_self.2 fun r hr => ?_
    obtain ⟨use, -, rfl⟩ := mem_map.1 hr
    rfl
  have others : (reportUnresolved m.source model known).filter isHoisted = [] := by
    refine filter_eq_nil_iff.2 fun r hr => ?_
    obtain ⟨reference, -, rfl⟩ := mem_map.1 hr
    exact Bool.eq_false_iff.1 rfl
  have hoisted := congrArg (filter isHoisted) h
  rwa [filter_append, filter_append, tracked, tracked, warnings, others, append_nil] at hoisted

/-! ### Each element once -/

/-- **Providers and styles are collected once.** The providers of a model, and the `style` elements
that its styles come from, are elements of the component's function, each as often as it is built;
so they are different elements, unless one stands in content that is built twice. There is one
warning for each provider that is taken to stand under a condition. -/
theorem collected_once {tree : Node} (hroot : m.root = tree.numbered)
    (h : analyze m o reports = .ok model reports') :
    (provided model).map (·.node) <+~ (sites m.source (modelNames model) model.node).filter
        (isProvider m.source (modelNames model)) ∧
    (OutsideRepeated m.source (modelNames model) (isProvider m.source (modelNames model))
        model.node → ((provided model).map (·.node.index)).Nodup) ∧
    reports'.filter isHoisted = reports.filter isHoisted
      ++ ((provided model).filter (·.isNested)).map (hoistedReport m.source) ∧
    ∃ elements : List Node, model.styles = elements.filterMap (styleRules? m.source) ∧
      elements <+~ (sites m.source (modelNames model) model.node).filter
        (isStyle m.source (modelNames model)) ∧
      (OutsideRepeated m.source (modelNames model) (isStyle m.source (modelNames model))
        model.node → (elements.map index).Nodup) := by
  obtain ⟨choice, top, read, found, stages⟩ := exists_stages h
  obtain ⟨fs, collects, hreports⟩ := stages.exists_findings
  have numbers := stages.nodup_index hroot
  refine ⟨collects.provider_places, fun hproviders => ?_, filter_isHoisted hreports,
    _, collects.styles, collects.style_places, fun hstyles => ?_⟩
  · have once := nodup_of_outsideRepeated collects.provider_places numbers hproviders
    rwa [map_map] at once
  · exact nodup_of_outsideRepeated collects.style_places numbers hstyles

section Sample

/-- A provider without content. -/
def providerTag (start : Nat) (role : Option String) : Node :=
  plain "jsx_self_closing_element" start (start + 13)
    [plain "member_expression" (start + 1) (start + 11) [] (some "name")] role

/-- An element that shows a provider with a style in it, and a provider under a condition. -/
def guardedProviderModule : Module :=
  appModule ("function App() \x7b return <C.Provider><style>p</style>"
      ++ "\x7ba && <D.Provider/>\x7d</C.Provider>; \x7d")
    [plain "return_statement" 17 86
      [plain "jsx_element" 24 85
        [plain "jsx_opening_element" 24 36 [plain "member_expression" 25 35 [] (some "name")]
          (some "open_tag"),
         plain "jsx_element" 36 52
          [plain "jsx_opening_element" 36 43 [plain "identifier" 37 42 [] (some "name")]
            (some "open_tag"),
           plain "jsx_text" 43 44 [],
           plain "jsx_closing_element" 44 52 [plain "identifier" 46 51 [] (some "name")]
            (some "close_tag")],
         plain "jsx_expression" 52 72
          [plain "binary_expression" 53 71
            [plain "identifier" 53 54 [] (some "left"), plain "&&" 55 57 [] (some "operator"),
             providerTag 58 (some "right")]],
         plain "jsx_closing_element" 72 85 [plain "member_expression" 74 84 [] (some "name")]
          (some "close_tag")]]]

/-- Two providers, of which one gives a warning, and one style. -/
theorem collected_once_of_guarded : ∃ model reports,
    analyze guardedProviderModule {} [] = .ok model reports ∧
    (provided model).map (fun use => (use.key, use.isNested)) = [("D", true), ("C", false)] ∧
    model.styles = ["p"] ∧ ((provided model).map (·.node.index)).Nodup ∧
    reports.filter isHoisted
      = ((provided model).filter (·.isNested)).map
        (hoistedReport guardedProviderModule.source) := by
  have test : endsIn (analyze guardedProviderModule {}) [] (fun model _ => decide
      ((provided model).map (fun use => (use.key, use.isNested)) = [("D", true), ("C", false)] ∧
        model.styles = ["p"] ∧
        OutsideRepeated guardedProviderModule.source (modelNames model)
          (isProvider guardedProviderModule.source (modelNames model)) model.node)) = true := by
    decide +kernel
  obtain ⟨model, reports, hmodel, hshape⟩ := exists_ok_of_endsIn test
  obtain ⟨hproviders, hstyles, houtside⟩ := of_decide_eq_true hshape
  obtain ⟨-, hdistinct, hwarnings, -⟩ := collected_once rfl hmodel
  exact ⟨model, reports, hmodel, hproviders, hstyles, hdistinct houtside, hwarnings⟩

/-- A component instance whose one child is a provider. -/
def repeatedProviderModule : Module :=
  appModule "function App() \x7b return <A>\x7b<C.Provider/>\x7d</A>; \x7d"
    [plain "return_statement" 17 47
      [plain "jsx_element" 24 46
        [plain "jsx_opening_element" 24 27 [plain "identifier" 25 26 [] (some "name")]
          (some "open_tag"),
         plain "jsx_expression" 27 42 [providerTag 28 none],
         plain "jsx_closing_element" 42 46 [plain "identifier" 44 45 [] (some "name")]
          (some "close_tag")]]]

/-- The child is built as content and as markup that is handed over, and is collected both times. -/
theorem provided_twice : ∃ model reports,
    analyze repeatedProviderModule {} [] = .ok model reports ∧
    (provided model).map (fun use => use.node.index) = [10, 10] ∧
    (reports.filter isHoisted).length = 2 := by
  have test : endsIn (analyze repeatedProviderModule {}) [] (fun model reports => decide
      ((provided model).map (fun use => use.node.index) = [10, 10] ∧
        (reports.filter isHoisted).length = 2)) = true := by
    decide +kernel
  obtain ⟨model, reports, hmodel, hshape⟩ := exists_ok_of_endsIn test
  exact ⟨model, reports, hmodel, of_decide_eq_true hshape⟩

end Sample

/-! ### Providers under a condition -/

/-- Pieces that share a node are the same. -/
theorem Collects.piece_unique (h : Collects m.source model fs)
    (hindex : (model.node.preorder.map index).Nodup) {v v' y : Node} (hv : v ∈ modelPieces model)
    (hv' : v' ∈ modelPieces model) (hy : y ∈ v.preorder) (hy' : y ∈ v'.preorder) : v = v' := by
  have inside := h.apart preorder gathers_preorder
  rw [flatMap_singleton] at inside
  have apart := (nodup_flatMap.1 (nodup_map_of_subperm inside hindex).of_map).2
  have : Std.Symm (Function.onFun List.Disjoint preorder) := ⟨fun _ _ hab _ hb ha => hab ha hb⟩
  by_contra hne
  exact apart.forall hv hv' hne hy hy'

/-- A provider that is shown is one of the model's. It is taken to stand under a condition just if
it is not behind tags only in its piece. -/
theorem Collects.provider_of_shown (h : Collects m.source model fs)
    (hindex : (model.node.preorder.map index).Nodup) {v y : Node} (hv : v ∈ modelPieces model)
    (hy : Shown m.source (modelNames model) v y)
    (hprovider : isProvider m.source (modelNames model) y = true) :
    ∃ use ∈ provided model, use.node = y ∧
      (use.isNested = true ↔ y ∉ plainIn m.source (modelNames model) v) := by
  obtain ⟨groups, hfs, hgroups⟩ := h.parts.exists_split
  obtain ⟨ofPiece, ofGroup⟩ := exists_of_forall₂ hgroups
  by_cases hplain : y ∈ plainIn m.source (modelNames model) v
  · -- The piece has a finding for each provider behind tags only, and no condition was met there.
    obtain ⟨group, hgroup, -, hbehind⟩ := ofPiece v hv
    rw [← hbehind] at hplain
    obtain ⟨f, hf, rfl⟩ := mem_map.1 hplain
    obtain ⟨hf, hfplain⟩ := mem_filter.1 hf
    cases f with
    | element e => cases hfplain
    | style n => cases hfplain
    | provider use =>
      have collected : use ∈ provided model := by
        rw [h.providers, Finding.mem_providers, hfs]
        exact mem_flatten.2 ⟨group, hgroup, hf⟩
      refine ⟨use, collected, rfl, ?_⟩
      have notNested : use.isNested = false := by simpa [Finding.isPlain] using hfplain
      simp only [notNested, Bool.false_eq_true, false_iff, not_not]
      rw [← hbehind]
      exact hplain
  · obtain ⟨use, huse, rfl⟩ := h.shown v hv y hy hprovider
    refine ⟨use, huse, rfl, ⟨fun _ => hplain, fun _ => ?_⟩⟩
    rw [h.providers, Finding.mem_providers, hfs] at huse
    obtain ⟨group, hgroup, huse⟩ := mem_flatten.1 huse
    obtain ⟨v', hv', hplaces, hbehind⟩ := ofGroup group hgroup
    -- The provider was found in the piece that shows it, since no other piece holds its node.
    obtain rfl := h.piece_unique hindex hv hv' (mem_preorder_of_shown hy) (hplaces _ huse)
    by_contra hnested
    refine hplain (hbehind ▸ mem_map.2 ⟨_, mem_filter.2 ⟨huse, ?_⟩, rfl⟩)
    simpa [Finding.isPlain] using hnested

/-- **Reports of providers under a condition.** A provider that a returned value shows is one of the
model's. It is taken to stand under a condition just if it is not behind tags only in the value that
is returned, whether that is returned early or not, and just then there is a warning about it. -/
theorem hoisted_reports {tree : Node} (hroot : m.root = tree.numbered)
    (h : analyze m o reports = .ok model reports') :
    (∀ v ∈ returnedValues model.node, ∀ y, Shown m.source (modelNames model) v y →
      isProvider m.source (modelNames model) y = true →
      ∃ use ∈ provided model, use.node = y ∧
        (use.isNested = true ↔ y ∉ plainIn m.source (modelNames model) v)) ∧
    reports'.filter isHoisted = reports.filter isHoisted
      ++ ((provided model).filter (·.isNested)).map (hoistedReport m.source) := by
  obtain ⟨choice, top, read, found, stages⟩ := exists_stages h
  obtain ⟨fs, collects, hreports⟩ := stages.exists_findings
  refine ⟨fun v hv y hy hprovider => ?_, filter_isHoisted hreports⟩
  exact collects.provider_of_shown (stages.nodup_index hroot) (mem_append_right _ hv) hy hprovider

section Sample

/-- A component that returns one of two values. -/
def earlyModule (text : String) (first last : Node) : Module :=
  appModule text
    [plain "if_statement" 17 59
      [plain "parenthesized_expression" 20 23 [plain "identifier" 21 22 []] (some "condition"),
       plain "return_statement" 24 59 [first] (some "consequence")],
     plain "return_statement" 60 72 [last]]

/-- An early value that shows a provider under a condition of its own. -/
def guardedEarlyModule : Module :=
  earlyModule
    "function App() \x7b if (a) return <p>\x7bb && <C.Provider/>\x7d</p>; return <p/>; \x7d"
    (plain "jsx_element" 31 58
      [plain "jsx_opening_element" 31 34 [plain "identifier" 32 33 [] (some "name")]
        (some "open_tag"),
       plain "jsx_expression" 34 54
        [plain "binary_expression" 35 53
          [plain "identifier" 35 36 [] (some "left"), plain "&&" 37 39 [] (some "operator"),
           providerTag 40 (some "right")]],
       plain "jsx_closing_element" 54 58 [plain "identifier" 56 57 [] (some "name")]
        (some "close_tag")])
    (plain "jsx_self_closing_element" 67 71 [plain "identifier" 68 69 [] (some "name")])

/-- The provider is reported for the condition inside the value. -/
theorem hoisted_reports_of_guarded : ∃ model reports,
    analyze guardedEarlyModule {} [] = .ok model reports ∧
    ∃ v ∈ earlyValues model.node, ∃ use ∈ provided model,
      Shown guardedEarlyModule.source (modelNames model) v use.node ∧ use.isNested = true ∧
        hoistedReport guardedEarlyModule.source use ∈ reports := by
  have test : endsIn (analyze guardedEarlyModule {}) [] (fun model _ =>
      let names := modelNames model
      (earlyValues model.node).any fun v =>
        (shownParts guardedEarlyModule.source names v).any fun part =>
          (shownParts guardedEarlyModule.source names part).any fun y =>
            isProvider guardedEarlyModule.source names y
              && decide (y ∉ plainIn guardedEarlyModule.source names v)) = true := by
    decide +kernel
  obtain ⟨model, reports, hmodel, hshape⟩ := exists_ok_of_endsIn test
  simp only [any_eq_true, Bool.and_eq_true, decide_eq_true_eq] at hshape
  obtain ⟨v, hv, part, hpart, y, hy, hprovider, hguarded⟩ := hshape
  obtain ⟨hshown, hwarnings⟩ := hoisted_reports rfl hmodel
  have shown : Shown guardedEarlyModule.source (modelNames model) v y :=
    .head hpart (.single hy)
  obtain ⟨use, huse, rfl, hnested⟩ := hshown v (earlyValues_subset _ hv) y shown hprovider
  have nested := hnested.2 hguarded
  refine ⟨model, reports, hmodel, v, hv, use, huse, shown, nested, ?_⟩
  have warned : hoistedReport guardedEarlyModule.source use ∈ reports.filter isHoisted := by
    rw [hwarnings]
    exact mem_append_right _ (mem_map_of_mem (mem_filter.2 ⟨huse, nested⟩))
  exact (mem_filter.1 warned).1

/-- An early value that is a provider. -/
def earlyProviderModule : Module :=
  earlyModule "function App() \x7b if (a) return <C.Provider/>; return <p/>; \x7d"
    (providerTag 31 none)
    (plain "jsx_self_closing_element" 53 57 [plain "identifier" 54 55 [] (some "name")])

/-- The provider is taken to stand under no condition, although it is returned early. -/
theorem early_provider_unreported : ∃ model reports,
    analyze earlyProviderModule {} [] = .ok model reports ∧
    (provided model).map (fun use => (use.node, use.isNested))
      = ((earlyValues model.node).take 1).map (fun v => (v, false)) ∧
    (provided model).length = 1 ∧ reports.filter isHoisted = [] := by
  have test : endsIn (analyze earlyProviderModule {}) [] (fun model reports => decide
      ((provided model).map (fun use => (use.node, use.isNested))
          = ((earlyValues model.node).take 1).map (fun v => (v, false)) ∧
        (provided model).length = 1 ∧ reports.filter isHoisted = [])) = true := by
    decide +kernel
  obtain ⟨model, reports, hmodel, hshape⟩ := exists_ok_of_endsIn test
  exact ⟨model, reports, hmodel, of_decide_eq_true hshape⟩

end Sample

end Sveltify.Analysis
