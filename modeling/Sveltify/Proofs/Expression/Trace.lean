import Sveltify.Expression.Convert
import Sveltify.Proofs.Step
import Sveltify.Proofs.Syntax.Tree

namespace Sveltify.Expression

open Component Scope

/-!
# Which nodes a conversion copies

A conversion visits nodes from the root down. A node that is not replaced is copied: its own text
stays as it is, but for the nodes below it.

* `convertNoting`: the conversion of a node, noting every node that it copies;
* `convertNoting_ok`: without the notes this is the conversion itself.
-/

variable (src : Source)

/-- A conversion that notes nodes as it goes. -/
abbrev Noting := EStateM Failure (Memory × List Node)

/-- A conversion that notes nothing. -/
def Noting.of {α : Type} (x : Conversion α) : Noting α := fun s =>
  match x s.1 with
  | .ok a memory => .ok a (memory, s.2)
  | .error e memory => .error e (memory, s.2)

/-- Note a node. -/
def note (n : Node) : Noting Unit := modify fun s => (s.1, s.2 ++ [n])

/-- The replacement of a node that does not call a setter; if there is none, the node is noted. -/
def replaceNoting (model : Model) (subs : Substitution) (n : Node) : Noting (Option String) := do
  match ← Noting.of (replaceOther src model subs n) with
  | none =>
    note n
    return none
  | some text => return some text

/-- The conversion of a node, noting every node that is copied. -/
def convertNoting (model : Model) (subs : Substitution) (isStatement : Bool) (n : Node) :
    Noting String :=
  spliceNode src n.size (fun parent c _hc => do
    match setterCall? model c with
    | none => replaceNoting src model subs c
    | some cell =>
      let isStatement :=
        match parent with
        | none => isStatement
        | some p => p.kind == "expression_statement"
      match _harg : (Hook.argumentsOf c).head? with
      | none => return some (assignment cell.name "undefined" isStatement)
      | some argument =>
        match _hv : newValue? src cell.name subs argument with
        | none => throw .incomplete
        | some v =>
          let text ← convertNoting model v.substitution false v.node
          let value := if v.isApplied then s!"({text})({cell.name})" else text
          return some (assignment cell.name value isStatement)) none n (Nat.le_refl _)
termination_by n.size
decreasing_by
  have := size_newValue src _hv
  have := size_argumentsOf _harg
  omega

/-! ### Forgetting the notes -/

/-- The first computation is the second one with notes. -/
def Forgets {α : Type} (x : Noting α) (y : Conversion α) : Prop :=
  ∀ s, match x s with
    | .ok a t => y s.1 = .ok a t.1
    | .error e t => y s.1 = .error e t.1

namespace Forgets

variable {src} {α β : Type}

theorem pure (a : α) : Forgets (Pure.pure a) (Pure.pure a) := fun _ => rfl

theorem throw (e : Failure) : Forgets (throw e : Noting α) (throw e) := fun _ => rfl

theorem of (x : Conversion α) : Forgets (Noting.of x) x := by
  intro s
  unfold Noting.of
  cases x s.1 <;> rfl

/-- Steps in a row forget their notes. -/
theorem bind {x : Noting α} {y : Conversion α} {f : α → Noting β} {g : α → Conversion β}
    (hxy : Forgets x y) (hfg : ∀ a, Forgets (f a) (g a)) : Forgets (x >>= f) (y >>= g) := by
  intro s
  have hs := hxy s
  show match EStateM.bind x f s with
    | .ok a t => EStateM.bind y g s.1 = .ok a t.1
    | .error e t => EStateM.bind y g s.1 = .error e t.1
  unfold EStateM.bind
  cases hx : x s with
  | ok a t =>
    rw [hx] at hs
    rw [show y s.1 = .ok a t.1 from hs]
    exact hfg a t
  | error e t =>
    rw [hx] at hs
    rw [show y s.1 = .error e t.1 from hs]

/-- Noting a node changes nothing else. -/
theorem note {x : Noting α} {y : Conversion α} (n : Node) (h : Forgets x y) :
    Forgets (do Expression.note n; x) y := fun s => h (s.1, s.2 ++ [n])

mutual

/-- Splicing with notes, if replacing is. -/
theorem spliceNode {bound : Nat}
    {f : Option Node → (n : Node) → n.size ≤ bound → Noting (Option String)}
    {g : Option Node → (n : Node) → n.size ≤ bound → Conversion (Option String)}
    (hfg : ∀ parent c h, Forgets (f parent c h) (g parent c h)) (parent : Option Node) (n : Node)
    (h : n.size ≤ bound) :
    Forgets (Expression.spliceNode src bound f parent n h)
      (Expression.spliceNode src bound g parent n h) := by
  rw [Expression.spliceNode, Expression.spliceNode]
  refine bind (hfg parent n h) fun replacement => ?_
  cases replacement with
  | some text => exact pure _
  | none =>
    dsimp only
    split
    · exact pure _
    · exact spliceChildren hfg n _ _ _
termination_by 2 * n.size
decreasing_by
  rw [Node.size_eq n]
  omega

/-- So do the children of a node. -/
theorem spliceChildren {bound : Nat}
    {f : Option Node → (n : Node) → n.size ≤ bound → Noting (Option String)}
    {g : Option Node → (n : Node) → n.size ≤ bound → Conversion (Option String)}
    (hfg : ∀ parent c h, Forgets (f parent c h) (g parent c h)) (n : Node) (cursor : Nat)
    (cs : List Node) (h : Node.sizeAll cs ≤ bound) :
    Forgets (Expression.spliceChildren src bound f n cursor cs h)
      (Expression.spliceChildren src bound g n cursor cs h) := by
  match cs with
  | [] =>
    rw [Expression.spliceChildren, Expression.spliceChildren]
    exact pure _
  | c :: rest =>
    rw [Expression.spliceChildren, Expression.spliceChildren]
    refine bind (spliceNode hfg (some n) c _) fun inner => ?_
    exact bind (spliceChildren hfg n _ rest _) fun tail => pure _
termination_by 2 * Node.sizeAll cs + 1
decreasing_by
  all_goals
    have := c.size_pos
    simp only [Node.sizeAll_cons]
    omega

end

/-- Replacing forgets its notes. -/
theorem replaceNoting (model : Model) (subs : Substitution) (n : Node) :
    Forgets (Expression.replaceNoting src model subs n) (replaceOther src model subs n) := by
  have cont (replacement : Option String) : Forgets
      (match replacement with
        | none => do Expression.note n; return none
        | some text => return some text)
      (Pure.pure replacement) := by
    cases replacement with
    | none => exact note n (pure _)
    | some text => exact pure _
  have := bind (of (replaceOther src model subs n)) cont
  rw [bind_pure] at this
  exact this

/-- The noting conversion is the conversion with notes. -/
theorem convertNoting (model : Model) (subs : Substitution) (isStatement : Bool) (n : Node) :
    Forgets (Expression.convertNoting src model subs isStatement n)
      (convert src model subs isStatement n) := by
  rw [Expression.convertNoting, convert]
  refine spliceNode (fun parent c hc => ?_) none n _
  cases setterCall? model c with
  | none => exact replaceNoting model subs c
  | some cell =>
    dsimp only
    generalize harg : (Hook.argumentsOf c).head? = first
    cases first with
    | none => exact pure _
    | some argument =>
      dsimp only
      generalize hv : newValue? src cell.name subs argument = value
      cases value with
      | none => exact throw _
      | some v => exact bind (convertNoting model _ _ v.node) fun text => pure _
termination_by n.size
decreasing_by
  have := size_newValue src hv
  have := size_argumentsOf harg
  omega

end Forgets

/-- A conversion that ends well ends in the same way with notes. -/
theorem convertNoting_ok {model : Model} {subs : Substitution} {isStatement : Bool} {n : Node}
    {memory memory' : Memory} {text : String}
    (h : convert src model subs isStatement n memory = .ok text memory') :
    ∃ copied, convertNoting src model subs isStatement n (memory, []) =
      .ok text (memory', copied) := by
  have forgets := @Forgets.convertNoting src model subs isStatement n (memory, [])
  cases hx : convertNoting src model subs isStatement n (memory, []) with
  | ok a t =>
    rw [hx, h] at forgets
    cases forgets
    exact ⟨t.2, rfl⟩
  | error e t =>
    rw [hx, h] at forgets
    cases forgets

end Sveltify.Expression
