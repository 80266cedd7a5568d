import Sveltify.Syntax.Node

namespace Sveltify.Expression

/-!
# Splicing replacements into source text

A node is written out from its source with some of the nodes below it replaced. Text between
children is copied as it stands, so comments and spacing survive around a replacement.

* `spliceNode`: the general form, where replacing is a step with effects that may rely on the
  nodes it sees being no larger than a bound;
* `splice`: the form without effects.
-/

/-! ### Splicing with effects -/

section

variable {m : Type → Type} [Monad m] (src : Source) (bound : Nat)
  (replace : (parent : Option Node) → (n : Node) → n.size ≤ bound → m (Option String))

mutual

/-- Write out a node. A node for which `replace` has a text is written as that text. -/
def spliceNode (parent : Option Node) (n : Node) (h : n.size ≤ bound) : m String := do
  match ← replace parent n h with
  | some text => return text
  | none =>
    if n.children.isEmpty then return src.text n
    else spliceChildren n n.start n.children (Node.sizeAll_children_le h)
termination_by 2 * n.size
decreasing_by
  rw [Node.size_eq n]
  omega

/-- Write out what is left of a node from the offset `cursor` on, given the children that are still
to come. -/
def spliceChildren (n : Node) (cursor : Nat) (cs : List Node) (h : Node.sizeAll cs ≤ bound) :
    m String :=
  match cs with
  | [] => return src.slice cursor n.stop
  | c :: rest => do
    let inner ← spliceNode (some n) c (Node.size_head_le h)
    let tail ← spliceChildren n c.stop rest (Node.sizeAll_tail_le h)
    return src.slice cursor c.start ++ inner ++ tail
termination_by 2 * Node.sizeAll cs + 1
decreasing_by
  · simp only [Node.sizeAll_cons]
    omega
  · have := c.size_pos
    simp only [Node.sizeAll_cons]
    omega

end

end

/-! ### Splicing without effects -/

/-- Write out a node, each node for which `replace` has a text as that text. -/
def splice (src : Source) (replace : Option Node → Node → Option String) (n : Node) : String :=
  Id.run (spliceNode src n.size (fun parent c _ => pure (replace parent c)) none n
    (Nat.le_refl _))

end Sveltify.Expression
