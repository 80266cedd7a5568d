import Sveltify.Expression.Splice
import Sveltify.Proofs.Step

namespace Sveltify.Expression

/-!
# Splicing, step by step

* `spliceNode_of`: a property of steps holds of splicing a node if it holds of replacing each node
  that is visited. Which nodes are visited may depend on what was not replaced above them.
-/

variable {src : Source} {ε σ : Type} {bound : Nat}
  {replace : Option Node → (n : Node) → n.size ≤ bound → EStateM ε σ (Option String)}
  {P : ∀ {α : Type}, EStateM ε σ α → Prop} {V : Option Node → Node → Prop}

mutual

/-- **Splicing.** Suppose that `V` passes from a node without replacement to its children. If
replacing the nodes with `V` has a property of steps, then so has splicing. -/
theorem spliceNode_of (hP : StepClosed P)
    (hreplace : ∀ {parent c h}, V parent c → P (replace parent c h))
    (hdown : ∀ {parent c h s t}, V parent c → replace parent c h s = .ok none t →
      ∀ d ∈ c.children, V (some c) d)
    {parent : Option Node} {n : Node} (h : n.size ≤ bound) (hn : V parent n) :
    P (spliceNode src bound replace parent n h) := by
  rw [spliceNode]
  refine hP.bind (hreplace hn) fun {s r t} hrun => ?_
  cases r with
  | some text => exact hP.pure _
  | none =>
    dsimp only
    split
    · exact hP.pure _
    · exact spliceChildren_of hP hreplace hdown _ (hdown hn hrun)
termination_by 2 * n.size
decreasing_by
  rw [Node.size_eq n]
  omega

theorem spliceChildren_of (hP : StepClosed P)
    (hreplace : ∀ {parent c h}, V parent c → P (replace parent c h))
    (hdown : ∀ {parent c h s t}, V parent c → replace parent c h s = .ok none t →
      ∀ d ∈ c.children, V (some c) d)
    {n : Node} {cursor : Nat} {cs : List Node} (h : Node.sizeAll cs ≤ bound)
    (hcs : ∀ c ∈ cs, V (some n) c) :
    P (spliceChildren src bound replace n cursor cs h) := by
  match cs with
  | [] =>
    rw [spliceChildren]
    exact hP.pure _
  | c :: rest =>
    rw [spliceChildren]
    refine hP.bind (spliceNode_of hP hreplace hdown _ (hcs c (by simp))) fun _ => ?_
    exact hP.bind (spliceChildren_of hP hreplace hdown _ fun d hd => hcs d (by simp [hd]))
      fun _ => hP.pure _
termination_by 2 * Node.sizeAll cs + 1
decreasing_by
  all_goals
    have := c.size_pos
    simp only [Node.sizeAll_cons]
    omega

end

end Sveltify.Expression
