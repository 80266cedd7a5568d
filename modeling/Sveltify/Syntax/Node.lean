import Sveltify.Source

namespace Sveltify

/-!
# Concrete syntax trees

A module arrives as a concrete syntax tree: nodes with a kind, a span of the source, the role they
play in their parent, and children, punctuation included. A tree need not be one that a grammar
would produce, so every part that a reader looks for may be absent.

* `Node`: a node of a syntax tree;
* `Node.field?`, `Node.fields`, `Node.childOfKind?`, `Node.namedChildren`: the children by role
  and kind;
* `Node.size`: the number of nodes of a tree, by which recursion over trees is measured;
* `Node.numbered`: the same tree with its nodes numbered in pre-order, so that two nodes of one
  tree can be told apart.
-/

/-- A node of a concrete syntax tree. -/
structure Node where
  /-- The number of the node in the pre-order of its tree. -/
  index : Nat
  /-- The grammar's name for this kind of node. -/
  kind : String
  /-- The offset of its first octet. -/
  start : Nat
  /-- The offset just after its last octet. -/
  stop : Nat
  /-- Its role in the parent, if it has one. -/
  field : Option String
  /-- Is it a construct of its own, and not punctuation or a keyword? -/
  isNamed : Bool
  /-- Was it put in to repair the tree? -/
  isMissing : Bool
  children : List Node
deriving Repr, Inhabited

namespace Node

/-! ### Size -/

mutual

/-- The number of nodes of a tree. -/
def size : Node → Nat
  | ⟨_, _, _, _, _, _, _, children⟩ => 1 + sizeAll children

/-- The number of nodes of a list of trees. -/
def sizeAll : List Node → Nat
  | [] => 0
  | c :: cs => c.size + sizeAll cs

end

@[simp] theorem sizeAll_nil : sizeAll [] = 0 := by rw [sizeAll]

@[simp] theorem sizeAll_cons (c : Node) (cs : List Node) :
    sizeAll (c :: cs) = c.size + sizeAll cs := by rw [sizeAll]

theorem size_eq (n : Node) : n.size = 1 + sizeAll n.children := by
  cases n
  rw [size]

theorem size_pos (n : Node) : 0 < n.size := by
  rw [size_eq]
  omega

@[simp] theorem sizeAll_append (cs ds : List Node) :
    sizeAll (cs ++ ds) = sizeAll cs + sizeAll ds := by
  induction cs with
  | nil => simp
  | cons c cs ih => simp [ih, Nat.add_assoc]

theorem size_le_sizeAll {c : Node} {cs : List Node} (h : c ∈ cs) : c.size ≤ sizeAll cs := by
  induction cs with
  | nil => simp at h
  | cons d ds ih =>
    rcases List.mem_cons.1 h with rfl | h
    · simp
    · have := ih h
      simp only [sizeAll_cons]
      omega

theorem sizeAll_sublist {cs ds : List Node} (h : cs.Sublist ds) : sizeAll cs ≤ sizeAll ds := by
  induction h with
  | slnil => simp
  | cons _ _ ih => simp only [sizeAll_cons]; omega
  | cons_cons _ _ ih => simp only [sizeAll_cons]; omega

/-- A child is smaller than its parent. -/
theorem size_child {c n : Node} (h : c ∈ n.children) : c.size < n.size := by
  have := size_le_sizeAll h
  rw [size_eq n]
  omega

/-! ### Sizes within a bound -/

/-- The children of a node within a bound are within it together. -/
theorem sizeAll_children_le {n : Node} {bound : Nat} (h : n.size ≤ bound) :
    sizeAll n.children ≤ bound := by
  rw [size_eq] at h
  omega

theorem size_head_le {c : Node} {cs : List Node} {bound : Nat} (h : sizeAll (c :: cs) ≤ bound) :
    c.size ≤ bound := by
  rw [sizeAll_cons] at h
  omega

theorem sizeAll_tail_le {c : Node} {cs : List Node} {bound : Nat}
    (h : sizeAll (c :: cs) ≤ bound) : sizeAll cs ≤ bound := by
  rw [sizeAll_cons] at h
  omega

/-! ### Children by role and kind -/

/-- The children that are constructs of their own; comments do not count. -/
def namedChildren (n : Node) : List Node :=
  n.children.filter fun c => c.isNamed && c.kind != "comment"

/-- The first child with the given role. -/
def field? (n : Node) (name : String) : Option Node :=
  n.children.find? fun c => c.field == some name

/-- All children with the given role. -/
def fields (n : Node) (name : String) : List Node :=
  n.children.filter fun c => c.field == some name

/-- The first child of one of the given kinds. -/
def childOfKind? (n : Node) (kinds : List String) : Option Node :=
  n.children.find? fun c => kinds.contains c.kind

/-- Is the punctuation or keyword `token` among the children? -/
def hasToken (n : Node) (token : String) : Bool :=
  n.children.any fun c => !c.isNamed && c.kind == token

/-- The first child that is a construct of its own. -/
def firstNamed? (n : Node) : Option Node := n.namedChildren.head?

theorem namedChildren_subset {c n : Node} (h : c ∈ n.namedChildren) : c ∈ n.children :=
  (List.mem_filter.1 h).1

theorem size_namedChild {c n : Node} (h : c ∈ n.namedChildren) : c.size < n.size :=
  size_child (namedChildren_subset h)

theorem sizeAll_namedChildren (n : Node) : sizeAll n.namedChildren < n.size := by
  have := sizeAll_sublist (List.filter_sublist (l := n.children)
    (p := fun c => c.isNamed && c.kind != "comment"))
  rw [size_eq n, namedChildren]
  omega

theorem size_field {c n : Node} {name : String} (h : n.field? name = some c) :
    c.size < n.size :=
  size_child (List.mem_of_find?_eq_some h)

theorem size_firstNamed {c n : Node} (h : n.firstNamed? = some c) : c.size < n.size :=
  size_namedChild (List.mem_of_head? h)

/-! ### Spans and text -/

/-- The first and last offset of a node. -/
def span (n : Node) : Nat × Nat := (n.start, n.stop)

/-- The kinds of JSX elements. -/
def jsxKinds : List String := ["jsx_element", "jsx_self_closing_element", "jsx_fragment"]

/-- The kinds of functions. -/
def functionKinds : List String :=
  ["arrow_function", "function_expression", "function", "function_declaration"]

/-- Is the node a JSX element? -/
def isJsx (n : Node) : Bool := jsxKinds.contains n.kind

/-- Is the node a function? -/
def isFunction (n : Node) : Bool := functionKinds.contains n.kind

/-! ### Numbering -/

mutual

/-- The tree with its nodes numbered in pre-order from `next` on. -/
def numberFrom (next : Nat) : Node → Node
  | ⟨_, kind, start, stop, field, isNamed, isMissing, children⟩ =>
    ⟨next, kind, start, stop, field, isNamed, isMissing, numberAll (next + 1) children⟩

/-- The trees with their nodes numbered in pre-order from `next` on. -/
def numberAll (next : Nat) : List Node → List Node
  | [] => []
  | c :: cs => numberFrom next c :: numberAll (next + c.size) cs

end

/-- The tree with its nodes numbered in pre-order. -/
def numbered (n : Node) : Node := numberFrom 0 n

/-- Are the two the same node of one numbered tree? -/
def same (m n : Node) : Bool := m.index == n.index

end Node

namespace Source

/-- The text of a node. -/
def text (src : Source) (n : Node) : String := src.slice n.start n.stop

/-- The position where a node starts. -/
def startOf (src : Source) (n : Node) : Position := src.position n.start

/-- The location of a node. -/
def locate (src : Source) (n : Node) : Location := src.location n.start n.stop

end Source

end Sveltify
