import Sveltify.Syntax.Node

namespace Sveltify.Node

/-!
# The nodes of a syntax tree

* `preorder`: every node of a tree, each before its children and these from left to right;
* `descendantsWhere`: the nodes below a node that satisfy a test, without looking below nodes where
  the search is cut;
* `hasMarkup`: is there a JSX element in the tree?
* `withoutParens`, `bare?`: an expression without the parentheses, or the parentheses and type
  assertions, around it.

Both traversals keep the trees still to be visited in a list, the next one in front.
-/

/-! ### Traversal -/

/-- Visit the trees of a list, each node before its children. -/
def preorderAll : List Node → List Node
  | [] => []
  | n :: rest => n :: preorderAll (n.children ++ rest)
termination_by stack => sizeAll stack
decreasing_by
  simp only [sizeAll_append, sizeAll_cons, size_eq n]
  omega

/-- Every node of the tree in pre-order. -/
def preorder (n : Node) : List Node := preorderAll [n]

@[simp] theorem preorderAll_nil : preorderAll [] = [] := by rw [preorderAll]

theorem preorderAll_cons (n : Node) (rest : List Node) :
    preorderAll (n :: rest) = n :: preorderAll (n.children ++ rest) := by rw [preorderAll]

/-- What the traversal of a list yields is no larger than some tree of the list. -/
theorem size_le_of_mem_preorderAll {m : Node} {stack : List Node} (h : m ∈ preorderAll stack) :
    ∃ c ∈ stack, m.size ≤ c.size := by
  fun_induction preorderAll stack with
  | case1 => simp at h
  | case2 n rest ih =>
    rcases List.mem_cons.1 h with rfl | h
    · exact ⟨m, List.mem_cons_self, Nat.le_refl _⟩
    · obtain ⟨c, hc, hle⟩ := ih h
      rcases List.mem_append.1 hc with hc | hc
      · exact ⟨n, List.mem_cons_self, Nat.le_of_lt (Nat.lt_of_le_of_lt hle (size_child hc))⟩
      · exact ⟨c, List.mem_cons_of_mem _ hc, hle⟩

theorem size_le_of_mem_preorder {m n : Node} (h : m ∈ n.preorder) : m.size ≤ n.size := by
  obtain ⟨c, hc, hle⟩ := size_le_of_mem_preorderAll h
  rw [List.mem_singleton] at hc
  exact hc ▸ hle

/-- Search the trees of a list. A node where the search is `cut` is still tested. -/
def descendantsIn (test cut : Node → Bool) : List Node → List Node
  | [] => []
  | n :: rest =>
    let found := descendantsIn test cut (if cut n then rest else n.children ++ rest)
    if test n then n :: found else found
termination_by stack => sizeAll stack
decreasing_by
  have := size_pos n
  split
  · simp only [sizeAll_cons]
    omega
  · simp only [sizeAll_append, sizeAll_cons, size_eq n]
    omega

/-- The proper descendants that satisfy `test`, in pre-order, leaving out everything below a node
that satisfies `cut`. -/
def descendantsWhere (n : Node) (test cut : Node → Bool) : List Node :=
  descendantsIn test cut n.children

/-- Is there a JSX element in the tree? -/
def hasMarkup (n : Node) : Bool := n.preorder.any isJsx

/-! ### Wrappers around an expression -/

/-- Is the node a type assertion around an expression? -/
def isAssertion (n : Node) : Bool :=
  ["as_expression", "satisfies_expression", "non_null_expression"].contains n.kind

/-- The expression inside parentheses. -/
def withoutParens (n : Node) : Node :=
  match _h : n.firstNamed? with
  | some inner => if n.kind == "parenthesized_expression" then inner.withoutParens else n
  | none => n
termination_by n.size
decreasing_by exact size_firstNamed _h

/-- The expression inside parentheses and type assertions. Empty parentheses stay as they are; an
assertion around nothing has no expression. -/
def bare? (n : Node) : Option Node :=
  match _h : n.firstNamed? with
  | some inner =>
    if n.kind == "parenthesized_expression" || n.isAssertion then inner.bare? else some n
  | none => if n.isAssertion then none else some n
termination_by n.size
decreasing_by exact size_firstNamed _h

theorem size_bare {n m : Node} (h : n.bare? = some m) : m.size ≤ n.size := by
  fun_induction bare? n with
  | case1 n inner hinner _ ih =>
    have := ih h
    have := size_firstNamed hinner
    omega
  | case2 n inner _ _ =>
    cases h
    exact Nat.le_refl _
  | case3 n _ _ => simp at h
  | case4 n _ _ =>
    cases h
    exact Nat.le_refl _

end Sveltify.Node
