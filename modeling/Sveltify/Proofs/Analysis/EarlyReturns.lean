import Sveltify.Analysis.Component
import Sveltify.Proofs.Step

namespace Sveltify.Analysis

open Render

/-!
# What early returns render

A component returns the value of the first `return` that it reaches. Which one that is depends on
the truth of the conditions before it. The render tree asks the same conditions.

* `returned?`, `bodyValue`: the value that statements return, given the truth of the conditions;
* `Evaluates`: what the value of a conditional expression comes down to;
* `settle`, `asked`: the piece of a render tree that is shown, and the conditions on the way to it;
* `Built`: the piece of a render tree that is built for a value;
* `exists_chains_of_buildTrees`: the pieces that the render tree of a component is put together from;
* `settle_buildTrees`: the render tree of a component shows what the tree shows that is built for
  the value that the component returns;
* `evaluates_of_built`: the tree that is built for a value shows what is built for the value that it
  comes down to.
-/

variable {src : Source} {names : Names} {τ : Node → Bool}

/-! ### Running statements -/

/-- Does a condition hold, given the truth of every node? One that the tree lacks does not. -/
def holds (τ : Node → Bool) (condition : Option Node) : Bool := condition.any τ

/-- The statement that an `if` statement goes on with. -/
def branchTaken? (τ : Node → Bool) (n : Node) : Option Node :=
  if holds τ (n.field? "condition") then n.field? "consequence"
  else (n.field? "alternative").bind Node.firstNamed?

/-- The branch that is taken is smaller. -/
theorem size_branchTaken {n b : Node} (h : branchTaken? τ n = some b) : b.size < n.size := by
  unfold branchTaken? at h
  split at h
  · exact Node.size_field h
  · obtain ⟨clause, hclause, hb⟩ := Option.bind_eq_some_iff.1 h
    exact Nat.lt_trans (Node.size_firstNamed hb) (Node.size_field hclause)

mutual

/-- The value that a statement returns; none if the next statement is run. -/
def returned? (τ : Node → Bool) (n : Node) : Option (Option Node) :=
  if n.kind == "return_statement" then some n.firstNamed?
  else if n.kind == "statement_block" then firstReturned? τ n.namedChildren
  else if n.kind == "if_statement" then
    match _h : branchTaken? τ n with
    | some branch => returned? τ branch
    | none => none
  else none
termination_by 2 * n.size
decreasing_by
  · have := Node.sizeAll_namedChildren n
    omega
  · have := size_branchTaken _h
    omega

/-- The value that the first of several statements to return returns. -/
def firstReturned? (τ : Node → Bool) : List Node → Option (Option Node)
  | [] => none
  | s :: rest => (returned? τ s).or (firstReturned? τ rest)
termination_by ss => 2 * Node.sizeAll ss + 1
decreasing_by
  · simp only [Node.sizeAll_cons]
    omega
  · have := Node.size_pos s
    simp only [Node.sizeAll_cons]
    omega

end

/-- Is the statement one that returns or branches? -/
def isBranching (s : Node) : Bool := s.kind == "return_statement" || s.kind == "if_statement"

/-- The value that the statements of a component return, by those that return or branch. -/
def bodyValue (τ : Node → Bool) (statements : List Node) : Option Node :=
  (firstReturned? τ (statements.filter isBranching)).join

/-- The value of the first branch whose condition holds, else the last one. -/
def chosen {β : Type} (τ : Node → Bool) (branches : List (Option Node × β)) (last : Option β) :
    Option β :=
  ((branches.find? fun b => holds τ b.1).map Prod.snd).or last

theorem chosen_cons {β : Type} (b : Option Node × β) (bs : List (Option Node × β))
    (last : Option β) :
    chosen τ (b :: bs) last = if holds τ b.1 then some b.2 else chosen τ bs last := by
  unfold chosen
  cases h : holds τ b.1 with
  | true => simp [h]
  | false => simp [h]

/-- The value that a chain of early returns returns, if it returns. -/
def ReturnChain.value (c : ReturnChain) (τ : Node → Bool) : Option (Option Node) :=
  chosen τ c.branches (if c.isTerminal then some c.elseValue else none)

/-- A sole return is what is returned. -/
theorem returned_of_soleReturn {n : Node} {v : Option Node} (h : soleReturn? n = some v) :
    returned? τ n = some v := by
  fun_induction soleReturn? n with
  | case1 n hreturn =>
    rw [returned?, if_pos hreturn]
    exact h
  | case2 n hreturn hblock only honly ih =>
    rw [returned?, if_neg hreturn, if_pos hblock, honly, firstReturned?, firstReturned?,
      Option.or_none]
    exact ih h
  | case3 => cases h
  | case4 => cases h

/-- An `if` statement whose first branch only returns. -/
theorem returned_if {n : Node} {value : Option Node} (hkind : (n.kind == "if_statement") = true)
    (hvalue : (n.field? "consequence").bind soleReturn? = some value) :
    returned? τ n =
      if holds τ (n.field? "condition") then some value
      else ((n.field? "alternative").bind Node.firstNamed?).bind (returned? τ) := by
  have kind : n.kind = "if_statement" := eq_of_beq hkind
  have taken : returned? τ n = (branchTaken? τ n).bind (returned? τ) := by
    rw [returned?]
    cases branchTaken? τ n <;> simp [kind]
  obtain ⟨statement, hstatement, hreturn⟩ := Option.bind_eq_some_iff.1 hvalue
  rw [taken, branchTaken?]
  split
  · rw [hstatement, Option.bind_some, returned_of_soleReturn hreturn]
  · rfl

/-- An `if` statement of which every branch only returns does what its chain says. -/
theorem returned_of_returnChain {n : Node} {c : ReturnChain} (h : returnChain? n = some c) :
    returned? τ n = c.value τ := by
  fun_induction returnChain? n generalizing c with
  | case1 => cases h
  | case2 n hkind value hvalue branch =>
    -- There is no `else`.
    rename_i halternative
    cases h
    rw [returned_if hkind hvalue, ReturnChain.value, chosen_cons, halternative]
    rfl
  | case3 => cases h
  | case4 n hkind value hvalue branch clause hclause inner hinner hif =>
    -- An `else if` is a chain of its own.
    rename_i ih
    obtain ⟨rest, hrest, rfl⟩ := Option.map_eq_some_iff.1 h
    rw [returned_if hkind hvalue, ReturnChain.value, chosen_cons, hclause, Option.bind_some, hinner,
      Option.bind_some, ih hrest]
    rfl
  | case5 n hkind value hvalue branch clause hclause inner hinner =>
    -- A plain `else` ends the chain.
    obtain ⟨v, hv, rfl⟩ := Option.map_eq_some_iff.1 h
    rw [returned_if hkind hvalue, ReturnChain.value, chosen_cons, hclause, Option.bind_some, hinner,
      Option.bind_some, returned_of_soleReturn hv]
    rfl
  | case6 => cases h

/-- A chain with a final `else` always returns. -/
theorem value_of_isTerminal {c : ReturnChain} (h : c.isTerminal = true) :
    ∃ v, c.value τ = some v := by
  unfold ReturnChain.value chosen
  cases c.branches.find? fun b => holds τ b.1 with
  | none => exact ⟨c.elseValue, by simp [h]⟩
  | some b => exact ⟨b.2, rfl⟩

/-- What is read of the statements of a component tells the value that they return. -/
theorem bodyValue_of_readStatements {statements : List Node}
    (hifs : ∀ s ∈ statements, s.kind = "if_statement" → (returnChain? s).isSome = true)
    {returns : List ReturnChain} {final : Option Node} {b b' : Body}
    (h : readStatements src statements b = .ok (returns, final) b') :
    bodyValue τ statements = (returns.findSome? (·.value τ)).getD final := by
  induction statements generalizing returns final b b' with
  | nil =>
    cases h
    rw [bodyValue, List.filter_nil, firstReturned?]
    rfl
  | cons s rest ih =>
    have ih := @ih fun s' hs' => hifs s' (List.mem_cons_of_mem _ hs')
    rw [readStatements] at h
    split at h
    · -- The final return.
      rename_i hreturn
      cases h
      have branching : isBranching s = true := by simp [isBranching, hreturn]
      rw [bodyValue, List.filter_cons_of_pos branching, firstReturned?, returned?, if_pos hreturn]
      simp
    · rename_i hreturn
      cases hchain : returnChain? s with
      | none =>
        -- Not an `if` statement, so the statement has no say in what is returned.
        have branching : isBranching s = false := by
          have : s.kind ≠ "if_statement" := by
            intro hif
            have := hifs s (by simp) hif
            simp [hchain] at this
          simp [isBranching, this, hreturn]
        rw [hchain] at h
        obtain ⟨_, b₁, -, hrest⟩ := bind_ok_iff.1 h
        rw [bodyValue, List.filter_cons_of_neg (by simp [branching])]
        exact ih hrest
      | some chain =>
        have branching : isBranching s = true := by
          have hif : (s.kind == "if_statement") = true := by
            by_contra hif
            rw [returnChain?, if_neg hif] at hchain
            cases hchain
          simp [isBranching, hif]
        rw [hchain] at h
        dsimp only at h
        rw [bodyValue, List.filter_cons_of_pos branching, firstReturned?,
          returned_of_returnChain hchain]
        split at h
        · -- A chain that always returns: nothing after it is run.
          rename_i hterminal
          cases h
          obtain ⟨v, hv⟩ := value_of_isTerminal (τ := τ) hterminal
          simp [hv]
        · obtain ⟨⟨chains, last⟩, b₁, hrest, hpure⟩ := bind_ok_iff.1 h
          cases hpure
          have := ih hrest
          rw [bodyValue] at this
          cases hv : chain.value τ with
          | none => simpa [hv] using this
          | some v => simp [hv]

/-! ### Render trees under given conditions -/

/-- A piece of a render tree, unless it renders nothing. -/
def visible : Option RenderNode → Option RenderNode
  | some (.fragment []) => none
  | r => r

mutual

/-- What is shown of a piece of a render tree, given the truth of the conditions. -/
def settleNode (τ : Node → Bool) : RenderNode → Option RenderNode
  | .conditional condition consequent alternate =>
    if holds τ condition then settleNode τ consequent else settle τ alternate
  | n => visible (some n)

/-- What is shown of a render tree, given the truth of the conditions. -/
def settle (τ : Node → Bool) : Option RenderNode → Option RenderNode
  | none => none
  | some n => settleNode τ n

end

mutual

/-- The conditions that are asked to find out what is shown of a piece, in order. -/
def askedNode (τ : Node → Bool) : RenderNode → List (Option Node)
  | .conditional condition consequent alternate =>
    condition :: if holds τ condition then askedNode τ consequent else asked τ alternate
  | _ => []

/-- The conditions that are asked to find out what is shown of a render tree, in order. -/
def asked (τ : Node → Bool) : Option RenderNode → List (Option Node)
  | none => []
  | some n => askedNode τ n

end

/-- Is the piece shown or not by a condition? -/
def isConditional : Option RenderNode → Bool
  | some (.conditional _ _ _) => true
  | _ => false

/-- Induction over the conditions of a render tree. -/
theorem conditionInduction {motive : Option RenderNode → Prop}
    (conditional : ∀ condition consequent alternate, motive (some consequent) → motive alternate →
      motive (some (.conditional condition consequent alternate)))
    (plain : ∀ r, isConditional r = false → motive r) (r : Option RenderNode) : motive r := by
  cases r with
  | none => exact plain none rfl
  | some n =>
    cases n with
    | conditional condition consequent alternate =>
      exact conditional condition consequent alternate
        (conditionInduction conditional plain (some consequent))
        (conditionInduction conditional plain alternate)
    | _ => exact plain _ rfl

/-- A condition decides which branch is shown. -/
theorem settle_conditional (condition : Option Node) (consequent : RenderNode)
    (alternate : Option RenderNode) :
    settle τ (some (.conditional condition consequent alternate)) =
      if holds τ condition then settle τ (some consequent) else settle τ alternate := by
  rw [settle, settleNode, settle]

/-- It is asked before those of the branch. -/
theorem asked_conditional (condition : Option Node) (consequent : RenderNode)
    (alternate : Option RenderNode) :
    asked τ (some (.conditional condition consequent alternate)) =
      condition :: if holds τ condition then asked τ (some consequent) else asked τ alternate := by
  rw [asked, askedNode, asked]

/-- Any other tree shows itself. -/
theorem settle_of_not_conditional {r : Option RenderNode} (h : isConditional r = false) :
    settle τ r = visible r := by
  cases r with
  | none => rfl
  | some n =>
    cases n with
    | conditional condition consequent alternate => cases h
    | _ => rfl

/-- It asks nothing. -/
theorem asked_of_not_conditional {r : Option RenderNode} (h : isConditional r = false) :
    asked τ r = [] := by
  cases r with
  | none => rfl
  | some n =>
    cases n with
    | conditional condition consequent alternate => cases h
    | _ => rfl

/-- A piece that renders nothing may stand for one that is not there. -/
theorem settle_getD_nothing (r : Option RenderNode) :
    settle τ (some (r.getD .nothing)) = settle τ r := by
  cases r with
  | none =>
    rw [settle_of_not_conditional rfl, settle_of_not_conditional rfl]
    rfl
  | some n => rfl

/-- The last branch is taken if no other is. -/
theorem chosen_eq_or {β : Type} (branches : List (Option Node × β)) (last : Option β) :
    chosen τ branches last = (chosen τ branches none).or last := by
  simp [chosen]

/-- A chain of conditions shows the piece of the first one that holds. -/
theorem settle_chainTree (branches : List (Option Node × Option RenderNode))
    (rest : Option RenderNode) :
    settle τ (chainTree branches rest) = settle τ ((chosen τ branches none).getD rest) := by
  induction branches with
  | nil => rfl
  | cons b bs ih =>
    obtain ⟨condition, consequent⟩ := b
    show settle τ (some (.conditional condition (consequent.getD .nothing) (chainTree bs rest))) = _
    rw [settle_conditional, chosen_cons, settle_getD_nothing, ih]
    split <;> rfl

/-- The piece that a chain of early returns renders, if it returns. -/
def BuiltChain.value (c : BuiltChain) (τ : Node → Bool) : Option (Option RenderNode) :=
  chosen τ c.branches (if c.isTerminal then some c.elseValue else none)

/-- Early returns in front of a final value show the piece of the first chain that returns. -/
theorem settle_assemble (chains : List BuiltChain) (final : Option RenderNode) :
    settle τ (assemble chains final) =
      settle τ ((chains.findSome? (·.value τ)).getD final) := by
  induction chains with
  | nil => rfl
  | cons c cs ih =>
    show settle τ
      (chainTree c.branches (if c.isTerminal then c.elseValue else assemble cs final)) = _
    have value : c.value τ = (chosen τ c.branches none).or
        (if c.isTerminal then some c.elseValue else none) := chosen_eq_or _ _
    rw [settle_chainTree, List.findSome?_cons, value]
    cases chosen τ c.branches none with
    | some r => rfl
    | none =>
      cases c.isTerminal with
      | true => rfl
      | false => exact ih

/-! ### What is built for a value -/

/-- The piece of a render tree is one that is built for the value. -/
def Built (src : Source) (names : Names) (value : Option Node) (r : Option RenderNode) : Prop :=
  ∃ nested p q, buildOptional src names nested value p = .ok r q

/-- The pieces of a chain are built for its values, under the same conditions. -/
structure ChainBuilt (src : Source) (names : Names) (c : ReturnChain) (b : BuiltChain) : Prop where
  branches : List.Forall₂ (fun value piece => piece.1 = value.1 ∧ Built src names value.2 piece.2)
    c.branches b.branches
  isTerminal : b.isTerminal = c.isTerminal
  elseValue : c.isTerminal = true → Built src names c.elseValue b.elseValue

/-- A chain is built branch by branch. -/
theorem yields_buildChain (c : ReturnChain) :
    Yields (ChainBuilt src names c) (buildChain src names c) := by
  have branch (value : Option Node × Option Node) :
      Yields (fun piece : Option Node × Option RenderNode =>
          piece.1 = value.1 ∧ Built src names value.2 piece.2)
        (do return (value.1, ← buildOptional src names false value.2)) := by
    intro p piece q h
    obtain ⟨r, p₁, hr, hpiece⟩ := bind_ok_iff.1 h
    cases hpiece
    exact ⟨rfl, false, p, q, hr⟩
  unfold buildChain
  refine (Yields.mapM fun value _ => branch value).andThen fun pieces hpieces => ?_
  cases hterminal : c.isTerminal with
  | true =>
    intro p chain q h
    obtain ⟨r, p₁, hr, hchain⟩ := bind_ok_iff.1 h
    cases hchain
    exact ⟨hpieces, hterminal.symm, fun _ => ⟨false, p, q, hr⟩⟩
  | false => exact .pure ⟨hpieces, hterminal.symm, fun h => by rw [hterminal] at h; cases h⟩

section Relations

variable {β γ : Type} {R : β → γ → Prop}

/-- Under the same conditions related branches are chosen. -/
theorem chosen_rel {bs : List (Option Node × β)} {cs : List (Option Node × γ)}
    (h : List.Forall₂ (fun b c => c.1 = b.1 ∧ R b.2 c.2) bs cs) {last : Option β}
    {last' : Option γ} (hlast : Option.Rel R last last') :
    Option.Rel R (chosen τ bs last) (chosen τ cs last') := by
  induction h with
  | nil => exact hlast
  | cons hbc _ ih =>
    rw [chosen_cons, chosen_cons, hbc.1]
    split
    · exact .some hbc.2
    · exact ih

/-- Related lists have related first finds. -/
theorem findSome_rel {δ ε : Type} {S : δ → ε → Prop} {f : δ → Option β} {g : ε → Option γ}
    (hfg : ∀ d e, S d e → Option.Rel R (f d) (g e)) {ds : List δ} {es : List ε}
    (h : List.Forall₂ S ds es) : Option.Rel R (ds.findSome? f) (es.findSome? g) := by
  induction h with
  | nil => exact .none
  | cons hde _ ih =>
    rw [List.findSome?_cons, List.findSome?_cons]
    have := hfg _ _ hde
    revert this
    generalize f _ = fd
    generalize g _ = ge
    rintro (h | _)
    · exact .some h
    · exact ih

end Relations

/-- A chain and its trees choose the same branch. -/
theorem ChainBuilt.value {c : ReturnChain} {b : BuiltChain} (h : ChainBuilt src names c b) :
    Option.Rel (Built src names) (c.value τ) (b.value τ) := by
  refine chosen_rel h.branches ?_
  rw [h.isTerminal]
  cases hterminal : c.isTerminal with
  | true => exact .some (h.elseValue hterminal)
  | false => exact .none

/-- The render tree of a component is put together from pieces that are built for its early returns
and for its final value. -/
theorem exists_chains_of_buildTrees {read : ComponentBody} {snippets : List Snippet}
    {tree : Option RenderNode} {p q : Render.Progress}
    (h : buildTrees src names read p = .ok (snippets, tree) q) :
    ∃ chains final, List.Forall₂ (ChainBuilt src names) read.returns chains ∧
      Built src names read.final final ∧ tree = assemble chains final := by
  obtain ⟨_, p₁, -, h⟩ := bind_ok_iff.1 h
  obtain ⟨chains, p₂, hchains, h⟩ := bind_ok_iff.1 h
  obtain ⟨final, p₃, hfinal, h⟩ := bind_ok_iff.1 h
  cases h
  exact ⟨chains, final, Yields.mapM (fun c _ => yields_buildChain c) hchains,
    ⟨false, p₂, q, hfinal⟩, rfl⟩

/-- The render tree of a component shows what is shown of the piece that is built for the value that
its early returns and its final return yield. -/
theorem settle_buildTrees {read : ComponentBody} {snippets : List Snippet}
    {tree : Option RenderNode} {p q : Render.Progress}
    (h : buildTrees src names read p = .ok (snippets, tree) q) :
    ∃ r, Built src names ((read.returns.findSome? (·.value τ)).getD read.final) r ∧
      settle τ tree = settle τ r := by
  obtain ⟨chains, final, pieces, hfinal, rfl⟩ := exists_chains_of_buildTrees h
  have value := findSome_rel (fun c b hcb => ChainBuilt.value (τ := τ) hcb) pieces
  refine ⟨(chains.findSome? (·.value τ)).getD final, ?_, settle_assemble chains final⟩
  revert value
  generalize read.returns.findSome? _ = v
  generalize chains.findSome? _ = r
  rintro (h | _)
  · exact h
  · exact hfinal

/-! ### Conditional values -/

/-- Is the expression a conjunction? -/
def isConjunction (n : Node) : Bool := n.kind == "binary_expression" && operator? n == some "&&"

/-- The condition of a conditional expression. -/
def conditionOf (n : Node) : Option Node :=
  if isConjunction n then n.field? "left" else n.field? "condition"

/-- The value of a conditional expression where its condition holds. -/
def thenPart (n : Node) : Option Node :=
  if isConjunction n then n.field? "right" else n.field? "consequence"

/-- The value of a conditional expression where its condition does not hold. What a conjunction
yields there is not rendered. -/
def elsePart (n : Node) : Option Node :=
  if isConjunction n then none else n.field? "alternative"

/-- The value of an expression comes down to another, given the truth of the conditions. -/
inductive Evaluates (τ : Node → Bool) : Option Node → Option Node → Prop
  | done (value : Option Node) : Evaluates τ value value
  | bare {n m : Node} {value : Option Node} (hbare : n.bare? = some m)
      (h : Evaluates τ (some m) value) : Evaluates τ (some n) value
  | taken {n : Node} {value : Option Node}
      (hn : isConjunction n = true ∨ n.kind = "ternary_expression")
      (h : Evaluates τ (if holds τ (conditionOf n) then thenPart n else elsePart n) value) :
      Evaluates τ (some n) value

/-- The step does not yield a conditional piece. -/
abbrev YieldsPlainPiece (x : Build (Option RenderNode)) : Prop :=
  Yields (fun r => isConditional r = false) x

/-- The piece shows a slot, if there is a piece. -/
inductive IsSlotUse : Option RenderNode → Prop
  | none : IsSlotUse none
  | slot (name callee : String) (arguments : List Node) (isOptional : Bool) :
      IsSlotUse (some (.slot name callee arguments isOptional))

/-- A slot is built as a slot. -/
theorem yields_slotUse (n : Node) : Yields IsSlotUse (slotUse src names n) := by
  unfold slotUse
  split
  · exact .pure .none
  · split
    · exact .pure .none
    · dsimp only
      split
      · exact .pure .none
      · split
        · exact .pure (.slot ..)
        · exact .bind fun _ => .pure (.slot ..)

theorem yields_buildStyle (n : Node) : YieldsPlainPiece (buildStyle src n) := by
  refine .bind fun isGlobal => .bind fun parts => ?_
  split
  · exact .pure rfl
  · dsimp only
    split
    · exact .bind fun _ => .pure rfl
    · exact .pure rfl

theorem yields_buildProvider (nested : Bool) (n : Node) (key : String)
    (children : List RenderNode) :
    YieldsPlainPiece (some <$> buildProvider src nested n key children) := by
  rw [map_eq_pure_bind]
  refine Yields.andThen (Q := fun r => isConditional (some r) = false) ?_ fun r hr => .pure hr
  refine .bind fun value => ?_
  dsimp only
  split
  · exact .bind fun _ => .bind fun _ => .pure rfl
  · exact .bind fun _ => .pure rfl

theorem yields_buildElement (n : Node) (tag : String) (children : List RenderNode) :
    YieldsPlainPiece (some <$> buildElement src names n tag children) := by
  rw [map_eq_pure_bind]
  refine Yields.andThen (Q := fun r => isConditional (some r) = false) ?_ fun r hr => .pure hr
  refine .bind fun id => .bind fun parts => ?_
  dsimp only
  split
  · exact .bind fun _ => .pure rfl
  · exact .pure rfl

/-- JSX is not rendered as a condition. -/
theorem yields_buildMarkup (nested : Bool) (n : Node) :
    YieldsPlainPiece (buildMarkup src names nested n) := by
  rw [buildMarkup]
  -- Whether there can be children or not, the tag decides.
  split <;> refine .bind fun children => ?_
  all_goals
    dsimp only
    split
    · exact .pure rfl
    · split
      · exact .pure rfl
      · split
        · exact yields_buildProvider nested n _ children
        · split
          · exact yields_buildStyle n
          · split
            · exact yields_buildElement n _ children
            · refine .bind fun id => .bind fun made => ?_
              obtain ⟨props, slots⟩ := made
              dsimp only
              split <;> exact .bind fun _ => .pure rfl

/-- A ternary expression is rendered as a condition, or shown as a value. -/
theorem buildBare_ternary {n : Node} (hempty : isEmptyLiteral src n = false)
    (hkind : n.kind = "ternary_expression") (nested : Bool) :
    buildBare src names nested n = (do
      if ← anyRendered src names
          ((n.field? "consequence").toList ++ (n.field? "alternative").toList) then
        let consequent ← buildOptional src names true (n.field? "consequence")
        let alternate ← buildOptional src names true (n.field? "alternative")
        return some (.conditional (n.field? "condition") (consequent.getD .nothing) alternate)
      else return some (.expression n)) := by
  have notJsx : n.isJsx = false := by simp [Node.isJsx, Node.jsxKinds, hkind]
  rw [buildBare, if_neg (by simp [hempty]), if_neg (by simp [notJsx]), if_neg (by simp [hkind]),
    if_pos (by simp [hkind])]
  dsimp only
  refine bind_congr fun rendered => ?_
  cases rendered with
  | false => rfl
  | true =>
    rw [if_pos rfl, if_pos rfl]
    split <;> rename_i hconsequence
    all_goals rw [hconsequence]
    all_goals refine bind_congr fun consequent => ?_
    all_goals
      split <;> rename_i halternative
      all_goals rw [halternative]
      all_goals rfl

/-- A conjunction is rendered as a condition on its left side. -/
theorem buildBare_conjunction {n : Node} (hempty : isEmptyLiteral src n = false)
    (hand : isConjunction n = true) (nested : Bool) :
    buildBare src names nested n = (do
      let consequent ← buildOptional src names true (n.field? "right")
      return consequent.map (.conditional (n.field? "left") · none)) := by
  have hkind : n.kind = "binary_expression" := by simp_all [isConjunction]
  have notJsx : n.isJsx = false := by simp [Node.isJsx, Node.jsxKinds, hkind]
  rw [buildBare, if_neg (by simp [hempty]), if_neg (by simp [notJsx]),
    if_pos (by simpa [isConjunction] using hand)]
  split <;> rename_i hright
  all_goals rw [hright]
  · rfl
  · refine bind_congr fun consequent => ?_
    cases consequent <;> rfl

/-- A list, a slot or a plain value is not rendered as a condition. -/
theorem yields_buildBare (nested : Bool) {n : Node} (hand : isConjunction n = false)
    (hternary : n.kind ≠ "ternary_expression") :
    YieldsPlainPiece (buildBare src names nested n) := by
  rw [buildBare]
  split
  · exact .pure rfl
  · split
    · exact yields_buildMarkup nested n
    · rw [if_neg (by simpa [isConjunction] using hand), if_neg (by simpa using hternary)]
      extract_lets rest
      -- Whether or not it may be a list, what follows is the items of a list, a slot or a value.
      have yieldsRest (isList : Bool) : YieldsPlainPiece (rest isList) := by
        unfold rest
        split
        · split
          · split
            · exact .pure rfl
            · split
              · exact .pure rfl
              · exact .pure rfl
              · exact .bind fun _ => .bind fun _ => .pure rfl
          · exact .pure rfl
        · refine (yields_slotUse n).andThen fun slot hslot => ?_
          split
          · cases hslot
            exact .pure rfl
          · split
            · exact .pure rfl
            · exact .pure rfl
      split
      · split
        · exact .bind yieldsRest
        · exact .bind yieldsRest
      · exact .bind yieldsRest

/-- A conditional piece is built for a conditional expression, from its parts. -/
theorem buildBare_conditional {nested : Bool} {n : Node} {p q : Render.Progress}
    {condition : Option Node} {consequent : RenderNode} {alternate : Option RenderNode}
    (h : buildBare src names nested n p =
      .ok (some (.conditional condition consequent alternate)) q) :
    (isConjunction n = true ∨ n.kind = "ternary_expression") ∧ condition = conditionOf n ∧
      (∃ r, Built src names (thenPart n) r ∧ consequent = r.getD .nothing) ∧
      Built src names (elsePart n) alternate := by
  -- An empty literal shows nothing.
  have hempty : isEmptyLiteral src n = false := by
    by_contra hempty
    rw [buildBare, if_pos (by simpa using hempty)] at h
    cases h
  unfold conditionOf thenPart elsePart
  cases hand : isConjunction n with
  | true =>
    rw [buildBare_conjunction hempty hand] at h
    obtain ⟨r, p₁, hr, h⟩ := bind_ok_iff.1 h
    cases r with
    | none => cases h
    | some r =>
      cases h
      exact ⟨.inl rfl, rfl, ⟨some consequent, ⟨true, p, q, hr⟩, rfl⟩, ⟨true, p, p, rfl⟩⟩
  | false =>
    by_cases hternary : n.kind = "ternary_expression"
    · rw [buildBare_ternary hempty hternary] at h
      obtain ⟨rendered, p₁, -, h⟩ := bind_ok_iff.1 h
      cases rendered with
      | false => cases h
      | true =>
        obtain ⟨yes, p₂, hyes, h⟩ := bind_ok_iff.1 h
        obtain ⟨no, p₃, hno, h⟩ := bind_ok_iff.1 h
        cases h
        exact ⟨.inr hternary, rfl, ⟨yes, ⟨true, p₁, p₂, hyes⟩, rfl⟩, ⟨true, p₂, q, hno⟩⟩
    · -- Nothing else is built as a condition.
      cases yields_buildBare nested hand hternary h

theorem buildExpression_of_bare {n m : Node} (h : n.bare? = some m) (nested : Bool) :
    buildExpression src names nested n = buildBare src names nested m := by
  rw [buildExpression]
  split <;> simp_all

theorem buildExpression_of_none {n : Node} (h : n.bare? = none) (nested : Bool) :
    buildExpression src names nested n = throw .incomplete := by
  rw [buildExpression]
  split <;> simp_all

/-- A block is built for a conditional value. -/
theorem Built.conditional {value : Option Node} {condition : Option Node} {consequent : RenderNode}
    {alternate : Option RenderNode}
    (h : Built src names value (some (.conditional condition consequent alternate))) :
    ∃ n m, value = some n ∧ n.bare? = some m ∧
      (isConjunction m = true ∨ m.kind = "ternary_expression") ∧ condition = conditionOf m ∧
      (∃ r, Built src names (thenPart m) r ∧ consequent = r.getD .nothing) ∧
      Built src names (elsePart m) alternate := by
  obtain ⟨nested, p, q, h⟩ := h
  cases value with
  | none => cases h
  | some n =>
    rw [buildOptional] at h
    cases hbare : n.bare? with
    | none =>
      rw [buildExpression_of_none hbare] at h
      cases h
    | some m =>
      rw [buildExpression_of_bare hbare] at h
      exact ⟨n, m, rfl, hbare, buildBare_conditional h⟩

/-- What is shown of the piece that is built for a value is built for what the value comes
down to. -/
theorem evaluates_of_built {value : Option Node} {r : Option RenderNode}
    (h : Built src names value r) :
    ∃ value' r', Evaluates τ value value' ∧ Built src names value' r' ∧
      visible r' = settle τ r := by
  induction r using conditionInduction generalizing value with
  | conditional condition consequent alternate ihyes ihno =>
    obtain ⟨n, m, rfl, hbare, hm, rfl, ⟨yes, hyes, rfl⟩, hno⟩ := h.conditional
    -- The expression takes the part that the piece takes.
    have step {value' : Option Node}
        (hvalue : Evaluates τ (if holds τ (conditionOf m) then thenPart m else elsePart m) value') :
        Evaluates τ (some n) value' := .bare hbare (.taken hm hvalue)
    rw [settle_conditional]
    split at step <;> rename_i hholds
    · rw [if_pos hholds]
      cases yes with
      | none => exact ⟨thenPart m, none, step (.done _), hyes, rfl⟩
      | some r =>
        obtain ⟨value', r', hvalue, hr⟩ := ihyes hyes
        exact ⟨value', r', step hvalue, hr⟩
    · rw [if_neg hholds]
      obtain ⟨value', r', hvalue, hr⟩ := ihno hno
      exact ⟨value', r', step hvalue, hr⟩
  | plain r hr => exact ⟨value, r, .done value, h, (settle_of_not_conditional hr).symm⟩

end Sveltify.Analysis
