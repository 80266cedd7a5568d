import Sveltify.Proofs.Analysis.EarlyReturns
import Sveltify.Proofs.Assembly.Placeholders

namespace Sveltify.Assembly

open Analysis Component Svelte
open Render (Names RenderNode Snippet)

/-!
# Early returns keep their meaning

The conditions of a component end as the branches of blocks in its markup. These ask the same
conditions in the same order as the render tree, and show what is made of the piece that the render
tree shows.

* `Decides`: what markup shows in the end, given the answers to the conditions that it asks;
* `isUnrefused`: no block is refused on the way to the piece that is shown;
* `decides_optionalMarkup`: the markup of a render tree shows the markup of the piece that the tree
  shows;
* `early_returns_kept`: statements, render tree and markup agree on what is rendered.
-/

variable {src : Source} {model : Model} {names : Names} {τ : Node → Bool}

/-! ### Markup under given answers -/

/-- What is left of a block after the condition before its branches turned out not to hold. -/
def remaining : List IfBranch → Option (List TemplateNode) → List TemplateNode
  | [], otherwise => otherwise.getD []
  | branches, otherwise => [.conditional branches otherwise]

/-- Markup shows other markup in the end, after its conditions have been asked one by one with the
given answers. The first branch whose condition holds is shown, else what stands after `else`. -/
inductive Decides : List (String × Bool) → List TemplateNode → List TemplateNode → Prop
  | done (ns : List TemplateNode) : Decides [] ns ns
  | yes {condition : String} {children ns : List TemplateNode} {branches : List IfBranch}
      {otherwise : Option (List TemplateNode)} {answers : List (String × Bool)}
      (h : Decides answers children ns) :
      Decides ((condition, true) :: answers)
        [.conditional (.mk condition children :: branches) otherwise] ns
  | no {condition : String} {children ns : List TemplateNode} {branches : List IfBranch}
      {otherwise : Option (List TemplateNode)} {answers : List (String × Bool)}
      (h : Decides answers (remaining branches otherwise) ns) :
      Decides ((condition, false) :: answers)
        [.conditional (.mk condition children :: branches) otherwise] ns

/-- The answer is that to the condition, which markup asks in converted form. -/
def Answers (src : Source) (model : Model) (τ : Node → Bool) (condition : Option Node)
    (answer : String × Bool) : Prop :=
  answer.2 = holds τ condition ∧ ∃ p q, expressionText? src model condition p = .ok answer.1 q

/-- The markup is one that is made of a piece of a render tree. -/
def Lowered (src : Source) (model : Model) (r : Option RenderNode) (ns : List TemplateNode) :
    Prop :=
  ∃ p q, optionalMarkup src model r p = .ok ns q

section

variable (src : Source) (model : Model) (τ : Node → Bool)

mutual

/-- Is no block refused on the way to what is shown of a piece? -/
def isUnrefusedNode : RenderNode → Bool
  | .conditional condition consequent alternate =>
    (blockRefusal src model (.conditional condition consequent alternate)).isNone &&
      if holds τ condition then isUnrefusedNode consequent else isUnrefused alternate
  | _ => true

/-- Is no block refused on the way to what is shown of a render tree? -/
def isUnrefused : Option RenderNode → Bool
  | none => true
  | some n => isUnrefusedNode n

end

end

theorem isUnrefused_conditional_iff {condition : Option Node} {consequent : RenderNode}
    {alternate : Option RenderNode} :
    isUnrefused src model τ (some (.conditional condition consequent alternate)) = true ↔
      blockRefusal src model (.conditional condition consequent alternate) = none ∧
      (if holds τ condition then isUnrefused src model τ (some consequent)
        else isUnrefused src model τ alternate) = true := by
  rw [isUnrefused, isUnrefusedNode, Bool.and_eq_true, Option.isNone_iff_eq_none, isUnrefused]

/-! ### The markup of conditions -/

/-- How the branches of a condition are made, step by step. -/
theorem alternateMarkup_conditional_ok {condition : Option Node} {consequent : RenderNode}
    {alternate : Option RenderNode} {p q : Progress} {branches : List IfBranch}
    {otherwise : Option (List TemplateNode)}
    (h : alternateMarkup src model (some (.conditional condition consequent alternate)) p =
      .ok (branches, otherwise) q) :
    ∃ shown content others p₁ p₂, branches = .mk shown content :: others ∧
      expressionText? src model condition p = .ok shown p₁ ∧
      nodeMarkup src model consequent p₁ = .ok content p₂ ∧
      alternateMarkup src model alternate p₂ = .ok (others, otherwise) q := by
  rw [alternateMarkup] at h
  obtain ⟨shown, p₁, hshown, h⟩ := bind_ok_iff.1 h
  obtain ⟨content, p₂, hcontent, h⟩ := bind_ok_iff.1 h
  obtain ⟨⟨others, last⟩, p₃, hothers, h⟩ := bind_ok_iff.1 h
  cases h
  exact ⟨shown, content, others, p₁, p₂, rfl, hshown, hcontent, hothers⟩

/-- The markup of a piece that is no block stands where no branch is left. -/
theorem alternateMarkup_of_not_conditional {n : RenderNode} (hn : isConditional (some n) = false) :
    alternateMarkup src model (some n) = (do return ([], some (← nodeMarkup src model n))) := by
  cases n with
  | conditional condition consequent alternate => cases hn
  | _ => rw [alternateMarkup]; simp

/-- A block that is not refused is made of its branches. -/
theorem alternateMarkup_of_nodeMarkup {n : RenderNode}
    (hrefusal : isUnrefused src model τ (some n) = true) {p q : Progress} {ns : List TemplateNode}
    (h : nodeMarkup src model n p = .ok ns q) :
    ∃ branches otherwise, alternateMarkup src model (some n) p = .ok (branches, otherwise) q ∧
      ns = remaining branches otherwise := by
  cases hn : isConditional (some n) with
  | false =>
    refine ⟨[], some ns, ?_, rfl⟩
    rw [alternateMarkup_of_not_conditional hn]
    exact bind_ok_iff.2 ⟨ns, q, h, rfl⟩
  | true =>
    cases n with
    | conditional condition consequent alternate =>
      rw [isUnrefused_conditional_iff] at hrefusal
      rw [nodeMarkup_conditional, orPlaceholder] at h
      -- The block catches a refusal only, and there is none.
      cases hmade : alternateMarkup src model
          (some (.conditional condition consequent alternate)) p with
      | ok made q' =>
        obtain ⟨branches, otherwise⟩ := made
        have block : (do
            let made ←
              alternateMarkup src model (some (.conditional condition consequent alternate))
            return [TemplateNode.conditional made.1 made.2]) p =
              .ok [.conditional branches otherwise] q' := bind_ok_iff.2 ⟨_, _, hmade, rfl⟩
        rw [Ends.orElse_of_ok block] at h
        cases h
        obtain ⟨shown, content, others, _, _, rfl, -⟩ := alternateMarkup_conditional_ok hmade
        exact ⟨_, _, rfl, rfl⟩
      | error e q' =>
        cases e with
        | refused r =>
          have := ((ends_alternateMarkup _).refused hmade).1
          rw [alternateRefusal, hrefusal.1] at this
          cases this
        | incomplete =>
          have block : (do
              let made ←
                alternateMarkup src model (some (.conditional condition consequent alternate))
              return [TemplateNode.conditional made.1 made.2]) p = .error .incomplete q' :=
            bind_error_iff.2 (.inl hmade)
          rw [Ends.orElse_of_incomplete block] at h
          cases h
    | _ => cases hn

/-- A piece that renders nothing has no markup. -/
theorem Lowered.visible {r : Option RenderNode} {ns : List TemplateNode}
    (h : Lowered src model r ns) : Lowered src model (visible r) ns := by
  unfold Analysis.visible
  split
  · obtain ⟨p, q, h⟩ := h
    rw [optionalMarkup, nodeMarkup, nodesMarkup] at h
    cases h
    exact ⟨p, p, rfl⟩
  · exact h

/-- The branches of a condition ask what the render tree asks, and show the markup of the piece that
it shows. -/
theorem decides_alternateMarkup {r : Option RenderNode}
    (hrefusal : isUnrefused src model τ r = true) {p q : Progress} {branches : List IfBranch}
    {otherwise : Option (List TemplateNode)}
    (h : alternateMarkup src model r p = .ok (branches, otherwise) q) :
    ∃ answers ns, List.Forall₂ (Answers src model τ) (asked τ r) answers ∧
      Decides answers (remaining branches otherwise) ns ∧ Lowered src model (settle τ r) ns := by
  induction r using conditionInduction generalizing p q branches otherwise with
  | conditional condition consequent alternate ihyes ihno =>
    obtain ⟨shown, content, others, p₁, p₂, rfl, hshown, hcontent, hothers⟩ :=
      alternateMarkup_conditional_ok h
    replace hrefusal := (isUnrefused_conditional_iff.1 hrefusal).2
    rw [asked_conditional, settle_conditional]
    cases hholds : holds τ condition with
    | true =>
      rw [if_pos hholds] at hrefusal
      obtain ⟨branches', otherwise', hconsequent, rfl⟩ :=
        alternateMarkup_of_nodeMarkup hrefusal hcontent
      obtain ⟨answers, ns, hanswers, hdecides, hlowered⟩ := ihyes hrefusal hconsequent
      exact ⟨(shown, true) :: answers, ns, .cons ⟨hholds.symm, p, p₁, hshown⟩ hanswers,
        .yes hdecides, hlowered⟩
    | false =>
      rw [if_neg (by simp [hholds])] at hrefusal
      obtain ⟨answers, ns, hanswers, hdecides, hlowered⟩ := ihno hrefusal hothers
      exact ⟨(shown, false) :: answers, ns, .cons ⟨hholds.symm, p, p₁, hshown⟩ hanswers,
        .no hdecides, hlowered⟩
  | plain r hr =>
    -- Nothing is asked, and the markup is that of the piece itself.
    rw [asked_of_not_conditional hr, settle_of_not_conditional hr]
    suffices Lowered src model r (remaining branches otherwise) from
      ⟨[], _, .nil, .done _, this.visible⟩
    cases r with
    | none =>
      rw [alternateMarkup] at h
      cases h
      exact ⟨p, p, rfl⟩
    | some n =>
      rw [alternateMarkup_of_not_conditional hr] at h
      obtain ⟨ns, p₁, hns, h⟩ := bind_ok_iff.1 h
      cases h
      exact ⟨p, q, hns⟩

/-- The markup of a render tree asks what the tree asks, and shows the markup of the piece that the
tree shows. -/
theorem decides_optionalMarkup {r : Option RenderNode}
    (hrefusal : isUnrefused src model τ r = true) {p q : Progress} {ns : List TemplateNode}
    (h : optionalMarkup src model r p = .ok ns q) :
    ∃ answers ms, List.Forall₂ (Answers src model τ) (asked τ r) answers ∧ Decides answers ns ms ∧
      Lowered src model (settle τ r) ms := by
  cases r with
  | none =>
    cases h
    have nothing : alternateMarkup src model none p = .ok ([], none) p := by
      rw [alternateMarkup]
      rfl
    exact decides_alternateMarkup hrefusal nothing
  | some n =>
    obtain ⟨branches, otherwise, hmade, rfl⟩ := alternateMarkup_of_nodeMarkup hrefusal h
    exact decides_alternateMarkup hrefusal hmade

/-! ### Statements, render tree and markup -/

/-- **Early returns keep their meaning.** Take statements whose `if` statements are chains of
returns, and give each condition any truth value. What the value that the statements return comes
down to is what the piece is built for that the render tree shows. If no block is refused on the
way to it, then the markup asks the same conditions in the same order, and shows the markup of that
piece. -/
theorem early_returns_kept (τ : Node → Bool) {statements : List Node}
    (hifs : ∀ s ∈ statements, s.kind = "if_statement" → (returnChain? s).isSome = true)
    {read : ComponentBody} {b : Body}
    (hread : readStatements src statements b = .ok (read.returns, read.final) read.body)
    {snippets : List Snippet} {tree : Option RenderNode} {p q : Render.Progress}
    (hbuild : buildTrees src names read p = .ok (snippets, tree) q) :
    ∃ value r, Evaluates τ (bodyValue τ statements) value ∧ Built src names value r ∧
      settle τ tree = visible r ∧
      ∀ {model : Model} {s t : Progress} {ns : List TemplateNode},
        optionalMarkup src model tree s = .ok ns t → isUnrefused src model τ tree = true →
        ∃ answers ms, List.Forall₂ (Answers src model τ) (asked τ tree) answers ∧
          Decides answers ns ms ∧ Lowered src model (visible r) ms := by
  obtain ⟨built, hbuilt, htree⟩ := settle_buildTrees (τ := τ) hbuild
  rw [← bodyValue_of_readStatements hifs hread] at hbuilt
  obtain ⟨value, r, hvalue, hr, hsettle⟩ := evaluates_of_built (τ := τ) hbuilt
  have shown : settle τ tree = visible r := htree.trans hsettle.symm
  refine ⟨value, r, hvalue, hr, shown, ?_⟩
  intro model s t ns hmarkup hrefusal
  rw [← shown]
  exact decides_optionalMarkup hrefusal hmarkup

section Sample

open Node

/-- The source of a component with early returns. -/
def branchingSource : Source :=
  .ofText "App.jsx"
    ("function App() \x7b if (a) return c && <p/>; else if (b) \x7b return; \x7d "
      ++ "return d ? <i/> : null; \x7d")

/-- The statements of a component with early returns, of which one returns a conjunction, one
nothing, and one a ternary expression. -/
def branchingStatements : List Node :=
  let condition (start : Nat) := plain "parenthesized_expression" start (start + 3)
    [plain "identifier" (start + 1) (start + 2) []] (some "condition")
  [plain "if_statement" 17 65
    [condition 20,
     plain "return_statement" 24 41 [plain "binary_expression" 31 40
      [plain "identifier" 31 32 [] (some "left"), plain "&&" 33 35 [] (some "operator"),
       emptyElement 36 (some "right")]] (some "consequence"),
     plain "else_clause" 42 65 [plain "if_statement" 47 65
      [condition 50,
       plain "statement_block" 54 65 [plain "return_statement" 56 63 []] (some "consequence")]]
      (some "alternative")],
   plain "return_statement" 66 89 [plain "ternary_expression" 73 88
    [plain "identifier" 73 74 [] (some "condition"), emptyElement 77 (some "consequence"),
     plain "null" 84 88 [] (some "alternative")]]]

/-- A component without props and bindings. -/
def bareModel : Model where
  name := "App"
  node := emptyElement 0 none
  props := { pattern := .absent }

/-- Where the conditions up to `c` hold and the others do not, statements, render tree and markup
agree on what is shown. -/
theorem early_returns_kept_of_nested :
    let τ : Node → Bool := fun n => decide (n.start < 40)
    ∃ (read : ComponentBody) (snippets : List Snippet) (tree : Option RenderNode)
      (p : Render.Progress) (ns : List TemplateNode) (q : Progress),
      readStatements branchingSource branchingStatements {} =
        .ok (read.returns, read.final) read.body ∧
      buildTrees branchingSource {} read {} = .ok (snippets, tree) p ∧
      optionalMarkup branchingSource bareModel tree {} = .ok ns q ∧
      ∃ value r, Evaluates τ (bodyValue τ branchingStatements) value ∧
        Built branchingSource {} value r ∧ settle τ tree = visible r ∧
        ∃ answers ms, List.Forall₂ (Answers branchingSource bareModel τ) (asked τ tree) answers ∧
          Decides answers ns ms ∧ Lowered branchingSource bareModel (visible r) ms := by
  intro τ
  have test : endsIn (readStatements branchingSource branchingStatements) {} (fun r body =>
      endsIn (buildTrees branchingSource {} ⟨body, r.1, r.2⟩) {} (fun trees _ =>
        isUnrefused branchingSource bareModel τ trees.2 &&
          endsIn (optionalMarkup branchingSource bareModel trees.2) {} (fun _ _ => true)))
      = true := by
    decide +kernel
  obtain ⟨r, body, hread, htest⟩ := exists_ok_of_endsIn test
  obtain ⟨trees, p, hbuild, htest⟩ := exists_ok_of_endsIn htest
  obtain ⟨hrefusal, htest⟩ := Bool.and_eq_true_iff.1 htest
  obtain ⟨ns, q, hmarkup, -⟩ := exists_ok_of_endsIn htest
  have hifs : ∀ s ∈ branchingStatements, s.kind = "if_statement" →
      (returnChain? s).isSome = true := by decide +kernel
  obtain ⟨value, piece, hvalue, hpiece, hshown, hkept⟩ := early_returns_kept τ hifs hread hbuild
  exact ⟨⟨body, r.1, r.2⟩, trees.1, trees.2, p, ns, q, hread, hbuild, hmarkup, value, piece, hvalue,
    hpiece, hshown, hkept hmarkup hrefusal⟩

end Sample

end Sveltify.Assembly
