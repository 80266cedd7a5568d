import Sveltify.Proofs.Analysis.Entries
import Sveltify.Proofs.Render.Notes

namespace Sveltify.Analysis

open Text Scope Component Render Node List

/-!
# The statements of a component in its model

* `leading`: the statements in front of the first return;
* `spine`: the conditions that the render tree of a component asks one after another;
  `mem_spine_assemble`: every branch of an early return is one of them;
* `bodyNodes`: the nodes of the entries that a model has for the statements of its body;
* `Represented`: a node is represented in the model, or reported;
* `leading_represented`: so is every statement in front of the first return, and no other one has an
  entry. `late_function_lost`: a function that is declared behind the first return has none.
-/

variable {src : Source} {names : Names}

/-! ### Statements in front of the first return -/

/-- Does the statement return in any case? -/
def returnsAlways (s : Node) : Bool :=
  s.kind == "return_statement" || (returnChain? s).any (·.isTerminal)

/-- The statements in front of the first one that returns in any case. -/
def leading (statements : List Node) : List Node := statements.takeWhile fun s => !returnsAlways s

theorem leading_cons (s : Node) (rest : List Node) :
    leading (s :: rest) = if returnsAlways s then [] else s :: leading rest := by
  unfold leading
  rw [takeWhile_cons]
  cases returnsAlways s <;> rfl

/-- What is read are the leading statements that are no early returns. -/
theorem readBefore_eq (statements : List Node) :
    readBefore statements = (leading statements).filter fun s => (returnChain? s).isNone := by
  induction statements with
  | nil => rfl
  | cons s rest ih =>
    rw [readBefore, leading_cons, returnsAlways]
    by_cases hreturn : (s.kind == "return_statement") = true
    · simp [hreturn]
    cases hchain : returnChain? s with
    | none => simp [hreturn, hchain, ih]
    | some chain =>
      by_cases hterminal : chain.isTerminal = true
      · simp [hreturn, hterminal]
      · simp [hreturn, hterminal, hchain, ih]

/-- The leading statements that are early returns are among the chains. -/
theorem chain_mem_endsOf {statements : List Node} {s : Node} {chain : ReturnChain}
    (hs : s ∈ leading statements) (hchain : returnChain? s = some chain) :
    chain ∈ (endsOf statements).1 := by
  -- By induction on the statements; `leading` and `endsOf` stop at the same one.
  induction statements with
  | nil => cases hs
  | cons t rest ih =>
    rw [leading_cons] at hs
    split at hs
    · cases hs
    rename_i hgoes
    rw [returnsAlways, Bool.or_eq_true, not_or] at hgoes
    rw [endsOf, if_neg hgoes.1]
    rcases mem_cons.1 hs with rfl | hs
    · rw [hchain] at hgoes ⊢
      dsimp only
      rw [if_neg (by simpa using hgoes.2)]
      exact mem_cons_self
    · cases hother : returnChain? t with
      | none => exact ih hs
      | some other =>
        rw [hother] at hgoes
        dsimp only
        rw [if_neg (by simpa using hgoes.2)]
        exact mem_cons_of_mem _ (ih hs)

/-! ### Early returns in the render tree -/

mutual

/-- The conditions that a piece of a render tree asks until one holds, each with what is rendered
then. -/
def spineNode : RenderNode → List (Option Node × RenderNode)
  | .conditional condition consequent alternate => (condition, consequent) :: spine alternate
  | _ => []

/-- The conditions that a render tree asks until one holds, each with what is rendered then. -/
def spine : Option RenderNode → List (Option Node × RenderNode)
  | none => []
  | some n => spineNode n

end

theorem spine_chainTree (branches : List (Option Node × Option RenderNode))
    (rest : Option RenderNode) :
    spine (chainTree branches rest) =
      branches.map (fun b => (b.1, b.2.getD .nothing)) ++ spine rest := by
  induction branches with
  | nil => rfl
  | cons b bs ih =>
    have unfolded : chainTree (b :: bs) rest =
        some (.conditional b.1 (b.2.getD .nothing) (chainTree bs rest)) := rfl
    rw [unfolded, spine, spineNode, ih]
    rfl

/-- Every branch of an early return is asked, since nothing comes behind a chain that returns in any
case. -/
theorem mem_spine_assemble {chains : List ReturnChain} {built : List BuiltChain}
    {final : Option Node} {last : Option RenderNode} (hsettled : Settled chains final)
    (hbuilt : Forall₂ (ChainBuilt src names) chains built) {chain : ReturnChain}
    (hchain : chain ∈ chains) {branch : Option Node × Option Node}
    (hbranch : branch ∈ chain.branches) :
    ∃ r, Built src names branch.2 r ∧
      (branch.1, r.getD .nothing) ∈ spine (assemble built last) := by
  induction hbuilt with
  | nil => cases hchain
  | @cons c b cs bs hc hcs ih =>
    have unfolded : assemble (b :: bs) last =
        chainTree b.branches (if b.isTerminal then b.elseValue else assemble bs last) := rfl
    rw [unfolded, spine_chainTree]
    rcases mem_cons.1 hchain with rfl | hchain
    · obtain ⟨piece, hpiece, hcondition, hvalue⟩ := (exists_of_forall₂ hc.branches).1 branch hbranch
      refine ⟨piece.2, hvalue, mem_append_left _ (mem_map.2 ⟨piece, hpiece, ?_⟩)⟩
      rw [hcondition]
    · rw [Settled] at hsettled
      split at hsettled
      · -- The first chain returns in any case, so there is no other.
        rw [hsettled.1] at hchain
        cases hchain
      · rename_i hterminal
        obtain ⟨r, hr, hmem⟩ := ih hsettled hchain
        rw [hc.isTerminal, if_neg hterminal]
        exact ⟨r, hr, mem_append_right _ hmem⟩

/-! ### Entries of a model -/

/-- The nodes of the entries that a model has for the statements of its body. What it provides and
what refs it receives is told elsewhere. -/
def bodyNodes (model : Model) : List Node :=
  model.state.values.map (·.node) ++ model.effects.map (·.node)
    ++ (model.contexts.filter (·.direction == .consume)).map (·.node)
    ++ (model.refs.values.filter (!·.isForwarded)).map (·.node) ++ model.snippets.map (·.node)
    ++ model.locals.map (·.node) ++ model.derived.values.map (·.node)

/-- The node is represented: it has an entry of the model, or a report that it is left out, or its
derived value has given way to another one under the text of its pattern, which has none of its
names. -/
inductive Represented (src : Source) (model : Model) (reports : List Report) (n : Node) : Prop
  | entry (mem : n ∈ bodyNodes model)
  | erased {hook : HookCall} (call : Hook.match? src n.firstNamed? = .ok (some hook))
      (kind : hook.kind = .useDebugValue) (reported : erasedReport src n hook ∈ reports)
  | replaced {p : Node} {d : DerivedBinding} (name : n.field? "name" = some p)
      (mem : d ∈ model.derived.values) (text : d.name = src.text p)
      (apart : d.names.Disjoint (boundNames src p))

/-- Changing the values of a table does not change what they have in common with the old ones. -/
theorem map_filter_mapValues {α β : Type} {f : String → α → α} {p : α → Bool} {g : α → β}
    (h : ∀ k a, p (f k a) = p a ∧ g (f k a) = g a) (t : Table α) :
    ((t.mapValues f).values.filter p).map g = (t.values.filter p).map g := by
  simp only [Table.values, Table.mapValues, map_map, filter_map]
  rw [filter_congr fun e _ => show _ = p e.2 from (h e.1 e.2).1]
  exact map_congr_left fun e _ => (h e.1 e.2).2

theorem map_node_setterSites (function : Node) (state : Table StateBinding) :
    (setterSites src function state).values.map (·.node) = state.values.map (·.node) := by
  simp only [setterSites, Table.values, Table.mapValues, map_map]
  refine map_congr_left fun e _ => ?_
  show (withSites _ _ _ e.2).node = e.2.node
  unfold withSites
  split <;> rfl

theorem map_node_attachRefs (targets : Table Nat) (refs : Table RefBinding) :
    ((attachRefs targets refs).values.filter (!·.isForwarded)).map (·.node)
      = (refs.values.filter (!·.isForwarded)).map (·.node) := by
  refine map_filter_mapValues (fun name r => ?_) refs
  split <;> exact ⟨rfl, rfl⟩

namespace Stages

variable {m : Module} {o : Options} {reports reports' : List Report} {model : Model}
  {choice : Choice} {top : ModuleLevel} {read : ComponentBody} {found : Progress}

/-- The entries of a model are those that were read of its body. -/
theorem bodyNodes_eq (h : Stages m o reports model reports' choice top read found) :
    bodyNodes model = read.body.nodes := by
  have consumers : model.contexts.filter (·.direction == .consume) = read.body.consumers := by
    have own : read.body.consumers.filter (·.direction == .consume) = read.body.consumers :=
      filter_eq_self.2 fun u hu => by simp [h.reading.sourced.consumers u hu]
    have others : found.providers.filter (·.direction == .consume) = [] :=
      filter_eq_nil_iff.2 fun u hu => by simp [(h.provision u hu).1]
    rw [h.contexts, filter_append, own, others, append_nil]
  have snippets : model.snippets.map (·.node) = read.body.snippets.map (·.node) := by
    refine forall₂_eq_eq_eq ▸ ?_
    exact forall₂_map_left_iff.2 (forall₂_map_right_iff.2 (h.snippets.flip.imp fun _ _ h => h.2.1))
  rw [bodyNodes, Body.nodes, Body.steadyNodes, consumers, snippets, h.state, h.refs, h.effects,
    h.locals, h.derived, map_node_setterSites, map_node_attachRefs]

/-- No report is lost on the way from the body to the model. -/
theorem reports_subset (h : Stages m o reports model reports' choice top read found) :
    read.body.reports ⊆ reports' := by
  have built := reports_subset_of_notes (notes_buildTrees read h.building)
  rw [h.reporting, append_assoc]
  exact Subset.trans built (subset_append_left _ _)

/-- What is noted while the body is read is represented in the model. -/
theorem represented (h : Stages m o reports model reports' choice top read found) {n : Node}
    (hn : Noted m.source n read.body) : Represented m.source model reports' n := by
  cases hn with
  | entry mem => exact .entry (h.bodyNodes_eq ▸ mem_append_left _ mem)
  | erased call kind reported => exact .erased call kind (h.reports_subset reported)
  | @derived p d name declared mem text own =>
    rcases own with rfl | apart
    · exact .entry (h.bodyNodes_eq ▸ mem_append_right _ (mem_map_of_mem mem))
    · exact .replaced name (h.derived ▸ mem) text apart

end Stages

/-! ### Models -/

variable {m : Module} {o : Options} {reports reports' : List Report} {model : Model}

/-- **No leading statement is lost.** Every statement in front of the first return is represented in
the model at all its places; the branches of an early return stand in the render tree. The other
statements have no entry. -/
theorem leading_represented (h : analyze m o reports = .ok model reports') {block : Node}
    (hblock : model.node.field? "body" = some block) (hkind : block.kind = "statement_block") :
    (∀ s ∈ leading block.namedChildren,
      (∀ chain, returnChain? s = some chain → ∀ branch ∈ chain.branches,
        ∃ r, Built m.source (modelNames model) branch.2 r ∧
          (branch.1, r.getD .nothing) ∈ spine model.renderTree) ∧
      (returnChain? s = none → ∀ n ∈ entryPlaces s, Represented m.source model reports' n)) ∧
    bodyNodes model ⊆ (leading block.namedChildren).flatMap entryPlaces := by
  obtain ⟨choice, top, read, found, stages, hrun, -⟩ := exists_run h
  have ends : (read.returns, read.final) = endsOf block.namedChildren := by
    rw [stages.reading.ends, ← stages.node, functionEnds, hblock]
    simp [hkind]
  rw [readFunctionBody, ← stages.node, hblock] at hrun
  simp only [hkind, beq_self_eq_true, if_true] at hrun
  have records := records_readStatements block.namedChildren hrun
  rw [readBefore_eq] at records
  have start := keyed_bodyOfProps (propsOf m.source choice.chosen) top.contexts
    (reports ++ choiceReports m.source choice)
  refine ⟨fun s hs => ⟨fun chain hchain branch hbranch => ?_, fun hchain n hn => ?_⟩, ?_⟩
  · obtain ⟨chains, final, hbuilt, -, htree⟩ := exists_chains_of_buildTrees stages.building
    have mem : chain ∈ read.returns := by
      have := chain_mem_endsOf hs hchain
      rwa [← ends] at this
    rw [htree, ← stages.names_eq stages.snippets]
    exact mem_spine_assemble stages.settled hbuilt mem hbranch
  · refine stages.represented (records.noted start n (mem_flatMap.2 ⟨s, ?_, hn⟩))
    exact mem_filter.2 ⟨hs, by simp [hchain]⟩
  · rw [stages.bodyNodes_eq]
    have nodes := records.nodes
    rw [nodes_bodyOfProps, append_nil] at nodes
    intro n hn
    obtain ⟨s, hs, hn⟩ := mem_flatMap.1 (nodes hn)
    exact mem_flatMap.2 ⟨s, (mem_filter.1 hs).1, hn⟩

section Sample

/-- A call that is left out, a constant and an early return in front of the final one. -/
def leadingModule : Module :=
  appModule ("function App() \x7b useDebugValue(1); const x = 2; if (x) return <i/>;"
      ++ " return <p/>; \x7d")
    [plain "expression_statement" 17 34
      [plain "call_expression" 17 33
        [plain "identifier" 17 30 [] (some "function"),
         plain "arguments" 30 33 [plain "number" 31 32 []] (some "arguments")]],
     plain "lexical_declaration" 35 47
      [plain "variable_declarator" 41 46
        [plain "identifier" 41 42 [] (some "name"), plain "number" 45 46 [] (some "value")]],
     plain "if_statement" 48 67
      [plain "parenthesized_expression" 51 54 [plain "identifier" 52 53 []] (some "condition"),
       plain "return_statement" 55 67
        [plain "jsx_self_closing_element" 62 66 [plain "identifier" 63 64 [] (some "name")]]
        (some "consequence")],
     plain "return_statement" 68 80
      [plain "jsx_self_closing_element" 75 79 [plain "identifier" 76 77 [] (some "name")]]]

/-- All three statements are represented. -/
theorem leading_represented_of_three : ∃ model reports block,
    analyze leadingModule {} [] = .ok model reports ∧
    model.node.field? "body" = some block ∧ block.kind = "statement_block" ∧
    (leading block.namedChildren).map (·.kind)
      = ["expression_statement", "lexical_declaration", "if_statement"] ∧
    (∀ s ∈ leading block.namedChildren, returnChain? s = none →
      ∀ n ∈ entryPlaces s, Represented leadingModule.source model reports n) ∧
    ∃ s ∈ leading block.namedChildren, ∃ chain, returnChain? s = some chain ∧
      ∀ branch ∈ chain.branches, ∃ r, (branch.1, r) ∈ spine model.renderTree := by
  have test : endsIn (analyze leadingModule {}) [] (fun model _ =>
      (model.node.field? "body").toList.any fun block => block.kind == "statement_block" &&
        decide ((leading block.namedChildren).map (·.kind)
          = ["expression_statement", "lexical_declaration", "if_statement"]) &&
        (leading block.namedChildren).any fun s => (returnChain? s).isSome) = true := by
    decide +kernel
  obtain ⟨model, reports, hmodel, hshape⟩ := exists_ok_of_endsIn test
  obtain ⟨block, hblock, hshape⟩ := any_eq_true.1 hshape
  simp only [Bool.and_eq_true, beq_iff_eq, decide_eq_true_eq, any_eq_true] at hshape
  obtain ⟨⟨hkind, hkinds⟩, s, hs, hsome⟩ := hshape
  obtain ⟨chain, hchain⟩ := Option.isSome_iff_exists.1 hsome
  have all := (leading_represented hmodel (Option.mem_toList.1 hblock) hkind).1
  refine ⟨model, reports, block, hmodel, Option.mem_toList.1 hblock, hkind, hkinds,
    fun t ht => (all t ht).2, s, hs, chain, hchain, fun branch hbranch => ?_⟩
  obtain ⟨r, -, hr⟩ := (all s hs).1 chain hchain branch hbranch
  exact ⟨_, hr⟩

/-- A function that is declared behind the return. -/
def lateFunctionModule : Module :=
  appModule "function App() \x7b return <p/>; function go() \x7b\x7d \x7d"
    [plain "return_statement" 17 29
      [plain "jsx_self_closing_element" 24 28 [plain "identifier" 25 26 [] (some "name")]],
     plain "function_declaration" 30 46
      [plain "identifier" 39 41 [] (some "name"),
       plain "formal_parameters" 41 43 [] (some "parameters"),
       plain "statement_block" 44 46 [] (some "body")]]

/-- The function is neither represented nor reported. -/
theorem late_function_lost : ∃ model reports block s,
    analyze lateFunctionModule {} [] = .ok model reports ∧
    model.node.field? "body" = some block ∧ s ∈ block.namedChildren ∧
    s.kind = "function_declaration" ∧ ¬ Represented lateFunctionModule.source model reports s ∧
    reports = [] := by
  have test : endsIn (analyze lateFunctionModule {}) [] (fun model reports =>
      (model.node.field? "body").toList.any (fun block => block.namedChildren.any fun s =>
        s.kind == "function_declaration" && decide (s ∉ bodyNodes model)) &&
      model.derived.values.isEmpty && reports.isEmpty) = true := by
    decide +kernel
  obtain ⟨model, reports, hmodel, hshape⟩ := exists_ok_of_endsIn test
  simp only [Bool.and_eq_true, List.isEmpty_iff] at hshape
  obtain ⟨⟨hblock, hderived⟩, rfl⟩ := hshape
  obtain ⟨block, hblock, hshape⟩ := any_eq_true.1 hblock
  simp only [Bool.and_eq_true, beq_iff_eq, decide_eq_true_eq, any_eq_true] at hshape
  obtain ⟨s, hs, hkind, hnodes⟩ := hshape
  refine ⟨model, [], block, s, hmodel, Option.mem_toList.1 hblock, hs, hkind, ?_, rfl⟩
  intro hrepresented
  cases hrepresented with
  | entry mem => exact hnodes mem
  | erased _ _ reported => cases reported
  | replaced _ mem => simp [hderived] at mem

end Sample

end Sveltify.Analysis
