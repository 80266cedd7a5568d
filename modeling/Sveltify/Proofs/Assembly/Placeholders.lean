import Sveltify.Assembly.Component
import Sveltify.Proofs.Assembly.Markup
import Sveltify.Proofs.Assembly.Script
import Sveltify.Proofs.Syntax.Tree

namespace Sveltify.Assembly

open Analysis Component Svelte

/-!
# Constructs without counterpart end as placeholders

Wherever a construct without counterpart stands in a component, the assembly goes on and leaves a
placeholder. The props are the exception: what is refused in a prop stops the assembly.

* `propsRefusal`: the construct for which the props are refused;
* `scriptPieces`, `shownPieces`: the parts of a component that end in the script and in the markup;
* `Keeps`: the placeholders of a Svelte component keep what these parts leave;
* `Assembled`: the parts that a component is assembled from, step by step;
* `toSvelte_refused_only_for_props`: how the assembly of any component ends;
* `analyzed_default_refused`: a prop whose default is markup stops it.
-/

variable {src : Source} {model : Model} {indent : String}

/-! ### Props -/

theorem plain_propEntry (p : PropBinding) : Plain src (propEntry src model p) := by
  unfold propEntry
  cases p.node.kind == "pair_pattern" with
  | true => exact .bind (plain_converted p.node) fun _ _ => .pure _ _
  | false =>
    cases p.defaultValue with
    | some value => exact .bind (plain_converted value) fun _ _ => .pure _ _
    | none => exact .pure _ _

/-- Props are declared by plain steps. -/
theorem plain_propsDeclaration : Plain src (propsDeclaration src model) := by
  unfold propsDeclaration
  cases model.props.pattern with
  | identifier =>
    dsimp only
    split
    · exact .pure _ _
    · exact .pure _ _
  | absent => exact .pure _ _
  | destructured => exact .bind (.mapM fun p _ => plain_propEntry p) fun _ _ => .pure _ _

section

variable (src : Source) (model : Model) (indent : String)

/-- The props that are received under names of their own. -/
def namedProps : List PropBinding :=
  match model.props.pattern with
  | .destructured => model.props.bindings.filter fun p => !p.isBindable && !p.isRest
  | _ => []

/-- The construct for which the props are refused: that of the first prop that is. -/
def propsRefusal : Option Refusal :=
  (namedProps model).findSome? fun p => refusalOf (propEntry src model p)

/-- Does the tree have all the parts that the props need? -/
def propsComplete : Bool := (namedProps model).all fun p => isComplete (propEntry src model p)

end

/-- The first prop that is refused refuses them all. -/
theorem ends_propsDeclaration :
    Ends (propsRefusal src model) (propsComplete src model) (fun _ => True)
      (propsDeclaration src model) := by
  unfold propsDeclaration propsRefusal propsComplete namedProps
  cases model.props.pattern with
  | identifier =>
    dsimp only
    split
    · exact .pure trivial
    · exact .pure trivial
  | absent => exact .pure trivial
  | destructured =>
    exact (Ends.mapM fun p _ => (plain_propEntry p).steady.endsAnyhow).map fun _ _ => trivial

/-! ### Components -/

section

variable (src : Source) (model : Model) (indent : String)

/-- The parts of a component that end in its script, but for the props. -/
def scriptPieces : List Piece :=
  itemPieces src model model.moduleItems ++ declarationPieces src model indent
    ++ provisionPieces src model

/-- The parts of a component that end in its markup. -/
def shownPieces : List Render.RenderNode := model.snippets.map (·.body) ++ model.renderTree.toList

/-- The placeholders of a Svelte component keep what the parts of the component leave: those in its
scripts and, in order, those in its markup. -/
structure Keeps (c : SvelteComponent) : Prop where
  script : (scriptLeftovers (c.moduleScript ++ c.script)).Perm
    ((scriptPieces src model indent).flatMap (Piece.leftovers src))
  markup : markupLeftovers c.template = (shownPieces model).flatMap (nodeLeftovers src model)

/-- Does the tree have all the parts that a component needs? -/
def componentComplete : Bool :=
  propsComplete src model && (piecesComplete (declarationPieces src model indent)
    && (piecesComplete (provisionPieces src model)
      && (model.snippets.all (fun s => nodeComplete src model s.body)
        && (model.renderTree.all (nodeComplete src model)
          && model.moduleItems.all (itemComplete src model)))))

end

/-- A snippet ends as its body does. -/
theorem ends_snippetMarkup (s : Render.Snippet) :
    Ends none (nodeComplete src model s.body)
      (fun n => templateLeftovers n = nodeLeftovers src model s.body)
      (snippetMarkup src model s) :=
  (ends_nodeMarkup s.body).map fun content h => by rw [templateLeftovers, h]

/-- So does a tree that may be missing. -/
theorem ends_optionalMarkup (n : Option Render.RenderNode) :
    Ends none (n.all (nodeComplete src model))
      (fun ns => markupLeftovers ns = n.toList.flatMap (nodeLeftovers src model))
      (optionalMarkup src model n) := by
  cases n with
  | none => exact .pure rfl
  | some n =>
    rw [Option.toList_some, List.flatMap_singleton]
    exact ends_nodeMarkup n

/-- Sorting groups does not change what they keep, but for the order. -/
theorem flatMap_inSourceOrder_perm (groups : List Group) :
    ((inSourceOrder groups).flatMap groupLeftovers).Perm (groups.flatMap groupLeftovers) :=
  (List.mergeSort_perm groups _).flatMap_right _

/-- What a script keeps that is put together from its parts. -/
theorem scriptLeftovers_assembled_perm (parts : ModuleParts) (props : Option PropsDeclaration)
    (groups : List Group) (provisions : List ScriptNode) :
    (scriptLeftovers (parts.moduleScript ++ (parts.types ++ props.toList.map .props
        ++ (inSourceOrder (parts.declarations ++ groups)).flatMap (·.nodes) ++ provisions))).Perm
      (partsLeftovers parts ++ groups.flatMap groupLeftovers ++ scriptLeftovers provisions) := by
  have noProps : scriptLeftovers (props.toList.map .props) = [] := by cases props <;> rfl
  have sorted := flatMap_inSourceOrder_perm (parts.declarations ++ groups)
  simp only [scriptLeftovers_append, scriptLeftovers_flatMap, noProps, List.append_nil]
  -- The parts are put in another order and the groups are sorted, so both sides are counted.
  rw [List.perm_iff_count] at sorted ⊢
  intro leftover
  have := sorted leftover
  simp only [partsLeftovers, List.count_append, List.flatMap_append] at this ⊢
  omega

/-- The assembly is refused just as the props are, and leaves placeholders for all else that is. -/
theorem ends_assembleComponent :
    Ends (propsRefusal src model) (componentComplete src model indent) (Keeps src model indent)
      (assembleComponent src model indent) := by
  rw [componentComplete, ← Bool.and_true (model.moduleItems.all _)]
  -- The props come first, and nothing after them is refused.
  refine ends_propsDeclaration.before fun props _ => ?_
  refine ends_declarationGroups.andThen fun groups hgroups => ?_
  refine ends_provisionNodes.andThen fun provisions hprovisions => ?_
  refine (Ends.mapM_none fun s _ => ends_snippetMarkup s).andThen fun snippets hsnippets => ?_
  refine (ends_optionalMarkup _).andThen fun markup hmarkup => ?_
  refine ends_moduleParts.andThen fun parts hparts => Ends.get.map fun progress _ => ?_
  constructor
  case script =>
    refine (scriptLeftovers_assembled_perm parts props groups provisions).trans ?_
    rw [hgroups, hprovisions, scriptPieces, List.flatMap_append, List.flatMap_append]
    exact (hparts.append_right _).append_right _
  case markup =>
    show markupLeftovers (snippets ++ markup) = _
    rw [markupLeftovers_append, hmarkup, markupLeftovers_eq, flatMap_eq_of_forall₂ hsnippets,
      shownPieces, List.flatMap_append, List.flatMap_map]

/-- A component comes from its assembly. -/
theorem assembleComponent_of_toSvelte {reports reports' : List Report} {c : SvelteComponent}
    (h : toSvelte src model indent reports = .ok c reports') :
    ∃ q, assembleComponent src model indent { reports } = .ok c q ∧ q.reports = reports' := by
  unfold toSvelte at h
  cases hrun : assembleComponent src model indent { reports } with
  | ok c' q =>
    rw [hrun] at h
    cases h
    exact ⟨q, rfl, rfl⟩
  | error e q =>
    rw [hrun] at h
    cases h

/-- The parts that a component is assembled from, with the steps that have built them. -/
structure Assembled (src : Source) (model : Model) (indent : String) (p q : Progress) where
  props : Option PropsDeclaration
  groups : List Group
  provisions : List ScriptNode
  snippets : List TemplateNode
  markup : List TemplateNode
  parts : ModuleParts
  /-- The states between the steps. -/
  (p₁ p₂ p₃ p₄ p₅ : Progress)
  props_run : propsDeclaration src model p = .ok props p₁
  groups_run : declarationGroups src model indent p₁ = .ok groups p₂
  provisions_run : provisionNodes src model p₂ = .ok provisions p₃
  snippets_run : model.snippets.mapM (snippetMarkup src model) p₃ = .ok snippets p₄
  markup_run : optionalMarkup src model model.renderTree p₄ = .ok markup p₅
  parts_run : moduleParts src model p₅ = .ok parts q

/-- The component that has these parts. -/
def Assembled.component {p q : Progress} (a : Assembled src model indent p q) :
    SvelteComponent where
  name := model.name
  typescript := model.typescript
  svelteImports := sortedNames q.svelteImports
  imports := a.parts.imports
  moduleScript := a.parts.moduleScript
  script := a.parts.types ++ a.props.toList.map .props
    ++ (inSourceOrder (a.parts.declarations ++ a.groups)).flatMap (·.nodes) ++ a.provisions
  template := a.snippets ++ a.markup
  style := if model.styles.isEmpty then none else some ("\n\n".intercalate model.styles)

/-- Every component that is assembled has such parts. -/
theorem exists_assembled {p q : Progress} {c : SvelteComponent}
    (hrun : assembleComponent src model indent p = .ok c q) :
    ∃ a : Assembled src model indent p q, c = a.component := by
  unfold assembleComponent at hrun
  obtain ⟨props, p₁, hprops, hrun⟩ := bind_ok_iff.1 hrun
  obtain ⟨groups, p₂, hgroups, hrun⟩ := bind_ok_iff.1 hrun
  obtain ⟨provisions, p₃, hprovisions, hrun⟩ := bind_ok_iff.1 hrun
  obtain ⟨snippets, p₄, hsnippets, hrun⟩ := bind_ok_iff.1 hrun
  obtain ⟨markup, p₅, hmarkup, hrun⟩ := bind_ok_iff.1 hrun
  obtain ⟨parts, p₆, hparts, hrun⟩ := bind_ok_iff.1 hrun
  cases hrun
  exact ⟨⟨props, groups, provisions, snippets, markup, parts, p₁, p₂, p₃, p₄, p₅, hprops, hgroups,
    hprovisions, hsnippets, hmarkup, hparts⟩, rfl⟩

/-- The markup of a component is that of its snippets, followed by that of its render tree. -/
theorem exists_template {P : Render.Snippet → TemplateNode → Prop} {Q : List TemplateNode → Prop}
    {reports reports' : List Report} {c : SvelteComponent}
    (hsnippet : ∀ s, Yields (P s) (snippetMarkup src model s))
    (hrender : Yields Q (optionalMarkup src model model.renderTree))
    (h : toSvelte src model indent reports = .ok c reports') :
    ∃ snippets markup, List.Forall₂ P model.snippets snippets ∧ Q markup ∧
      c.template = snippets ++ markup := by
  obtain ⟨q, hrun, -⟩ := assembleComponent_of_toSvelte h
  obtain ⟨a, rfl⟩ := exists_assembled hrun
  exact ⟨a.snippets, a.markup, Yields.mapM (fun s _ => hsnippet s) a.snippets_run,
    hrender a.markup_run, rfl⟩

/-- **Only props stop the assembly.** A component is assembled unless a prop is refused or the syntax
tree lacks a part. The result keeps, in placeholders, all that is refused outside of the props. -/
theorem toSvelte_refused_only_for_props (src : Source) (model : Model) (indent : String)
    (reports : List Report) :
    match toSvelte src model indent reports with
    | .ok c _ => propsRefusal src model = none ∧ Keeps src model indent c
    | .error (.refused r) _ => propsRefusal src model = some r ∧ r.kind = .unsupported
    | .error .incomplete _ => componentComplete src model indent = false := by
  have h := @ends_assembleComponent src model indent { reports }
  unfold toSvelte
  cases hrun : assembleComponent src model indent { reports } with
  | ok c p =>
    rw [hrun] at h
    exact h
  | error e p =>
    rw [hrun] at h
    cases e with
    | refused r => exact h
    | incomplete => exact h

section Sample

open Node

/-- A module with the one component `App`, given its text, its parameters, and the statements of its
body with the offset where that starts. -/
def appModule (text : String) (parameters : List Node) (start : Nat) (body : List Node) :
    Module where
  source := .ofText "App.jsx" text
  root :=
    let stop := text.length
    .numbered <| plain "program" 0 stop [plain "function_declaration" 0 stop
      (plain "identifier" 9 12 [] (some "name") :: parameters ++
        [plain "statement_block" start stop body (some "body")])]
  dialect := .javascript

/-- An element without content. -/
def emptyElement (start : Nat) (field : Option String) : Node :=
  plain "jsx_self_closing_element" start (start + 4)
    [plain "identifier" (start + 1) (start + 2) [] (some "name")] field

/-- A component with a cell that starts as markup. -/
def markupStateModule : Module :=
  appModule "function App() \x7b const [x, setX] = useState(<b/>); return <p/>; \x7d" [] 15
    [plain "lexical_declaration" 17 50 [plain "variable_declarator" 23 49
      [plain "array_pattern" 23 32 [plain "identifier" 24 25 [], plain "identifier" 27 31 []]
        (some "name"),
       plain "call_expression" 35 49
        [plain "identifier" 35 43 [] (some "function"),
         plain "arguments" 43 49 [emptyElement 44 none] (some "arguments")] (some "value")]],
     plain "return_statement" 51 63 [emptyElement 58 none]]

example : endsIn (analyze markupStateModule {}) [] (fun model reports =>
    componentComplete markupStateModule.source model "  " &&
      endsIn (toSvelte markupStateModule.source model "  ") reports (fun c _ =>
        scriptLeftovers c.script =
          [{ reason := "JSX outside the returned markup cannot be converted"
             source := "const [x, setX] = useState(<b/>)" }])) = true := by
  decide +kernel

/-- A component with a prop whose default is markup. -/
def markupDefaultModule : Module :=
  appModule "function App(\x7b a = <b/> \x7d) \x7b return <p/>; \x7d"
    [plain "formal_parameters" 12 26 [plain "object_pattern" 13 25
      [plain "object_assignment_pattern" 15 23
        [plain "shorthand_property_identifier_pattern" 15 16 [] (some "left"),
         emptyElement 19 (some "right")]]] (some "parameters")] 27
    [plain "return_statement" 29 41 [emptyElement 36 none]]

/-- A component that is analysed without fault may have a prop that stops its assembly. -/
theorem analyzed_default_refused : ∃ model reports r reports',
    analyze markupDefaultModule {} [] = .ok model reports ∧
    componentComplete markupDefaultModule.source model "  " = true ∧
    toSvelte markupDefaultModule.source model "  " reports = .error (.refused r) reports' ∧
    r.message = "JSX outside the returned markup cannot be converted" := by
  have test : endsIn (analyze markupDefaultModule {}) [] (fun model reports =>
      componentComplete markupDefaultModule.source model "  " &&
        failsIn (toSvelte markupDefaultModule.source model "  ") reports (fun e =>
          (refusedConstruct? e).any
            (·.message == "JSX outside the returned markup cannot be converted"))) = true := by
    decide +kernel
  obtain ⟨model, reports, hmodel, hchecked⟩ := exists_ok_of_endsIn test
  obtain ⟨hcomplete, hfails⟩ := Bool.and_eq_true_iff.1 hchecked
  obtain ⟨e, reports', hrun, hmessage⟩ := exists_error_of_failsIn hfails
  cases e with
  | refused r =>
    by_cases hr : r.kind = .unsupported
    · rw [show refusedConstruct? (.refused r) = some r from if_pos hr] at hmessage
      exact ⟨model, reports, r, reports', hmodel, hcomplete, hrun, eq_of_beq hmessage⟩
    · rw [show refusedConstruct? (.refused r) = none from if_neg hr] at hmessage
      cases hmessage
  | incomplete => cases hmessage

end Sample

end Sveltify.Assembly
