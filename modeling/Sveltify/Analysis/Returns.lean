import Sveltify.Syntax.Node

namespace Sveltify.Analysis

/-!
# Early returns

A component may return from the branches of `if` statements before its final return.

* `soleReturn?`: the value that a statement does nothing but return;
* `ReturnChain`: an `if` statement of which every branch only returns;
* `returnChain?`: the chain that a statement is, if it is one.
-/

/-- The value that a statement, or a block around it, does nothing but return. -/
def soleReturn? (n : Node) : Option (Option Node) :=
  if n.kind == "return_statement" then some n.firstNamed?
  else if n.kind == "statement_block" then
    match _h : n.namedChildren with
    | [only] => soleReturn? only
    | _ => none
  else none
termination_by n.size
decreasing_by exact Node.size_namedChild (_h ▸ List.mem_singleton.2 rfl)

/-- Branches that return, each with its condition, and what happens if no condition holds. -/
structure ReturnChain where
  /-- The conditions and the values returned under them, in order. -/
  branches : List (Option Node × Option Node)
  /-- Does a final `else` return too? -/
  isTerminal : Bool
  /-- The value of the final `else`. -/
  elseValue : Option Node
deriving Repr

/-- The chain that a statement is, if every branch of it only returns. -/
def returnChain? (n : Node) : Option ReturnChain :=
  if n.kind == "if_statement" then
    match (n.field? "consequence").bind soleReturn? with
    | none => none
    | some value =>
      let branch := (n.field? "condition", value)
      match _h : n.field? "alternative" with
      | none => some ⟨[branch], false, none⟩
      | some alternative =>
        match _h' : alternative.firstNamed? with
        | none => none
        | some inner =>
          -- The chain goes on with an `else if`, or ends with an `else`.
          if inner.kind == "if_statement" then
            (returnChain? inner).map fun c => { c with branches := branch :: c.branches }
          else (soleReturn? inner).map fun v => ⟨[branch], true, v⟩
  else none
termination_by n.size
decreasing_by
  have h₁ := Node.size_field _h
  have h₂ := Node.size_firstNamed _h'
  omega

end Sveltify.Analysis
