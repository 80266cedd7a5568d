import Mathlib.Data.List.Nodup
import Mathlib.Data.List.Pairwise
import Sveltify.Syntax.Preorder

namespace Sveltify.Node

/-!
# Where a node stands in its tree

* `treeInduction`: induction over trees, child by child;
* `preorder_eq`: a tree in pre-order is its root and then its children in pre-order;
* `preorder_trans`: the nodes of a subtree are nodes of the tree;
* `lineages`: each node of a tree together with the nodes above it;
* `nodup_index_numbered`: the nodes of a numbered tree are told apart by their numbers;
* `parent_unique`: if the spans of the nodes of some sort are distinct, then each of these has one
  parent only;
* `isNested`: the spans of the children of a node lie in its own span, one after another.

Equality of trees can be decided.
-/

/-! ### Equality -/

mutual

/-- Are two trees the same? -/
def decEq : (m n : Node) → Decidable (m = n)
  | ⟨i, kind, start, stop, field, isNamed, isMissing, children⟩,
    ⟨i', kind', start', stop', field', isNamed', isMissing', children'⟩ =>
    if h : (i, kind, start, stop, field, isNamed, isMissing)
        = (i', kind', start', stop', field', isNamed', isMissing') then
      match decEqAll children children' with
      | isTrue hc => isTrue (by simp_all)
      | isFalse hc => isFalse (by simp [hc])
    else isFalse (by simp_all)

/-- Are two lists of trees the same? -/
def decEqAll : (ms ns : List Node) → Decidable (ms = ns)
  | [], [] => isTrue rfl
  | [], _ :: _ => isFalse (by simp)
  | _ :: _, [] => isFalse (by simp)
  | m :: ms, n :: ns =>
    match decEq m n, decEqAll ms ns with
    | isTrue h, isTrue hs => isTrue (by rw [h, hs])
    | isFalse h, _ => isFalse (by simp [h])
    | _, isFalse hs => isFalse (by simp [hs])

end

instance : DecidableEq Node := decEq

/-! ### Induction -/

/-- Induction over trees. -/
theorem treeInduction {motive : Node → Prop}
    (node : ∀ n, (∀ c ∈ n.children, motive c) → motive n) (n : Node) : motive n :=
  node n fun c _ => treeInduction node c
termination_by n.size
decreasing_by exact size_child ‹_›

/-! ### Pre-order -/

theorem preorderAll_append (stack rest : List Node) :
    preorderAll (stack ++ rest) = preorderAll stack ++ preorderAll rest := by
  fun_induction preorderAll stack with
  | case1 => simp
  | case2 n stack ih =>
    rw [List.cons_append, preorderAll_cons, ← List.append_assoc, ih, List.cons_append]

theorem preorderAll_eq_flatMap (stack : List Node) :
    preorderAll stack = stack.flatMap preorder := by
  induction stack with
  | nil => simp
  | cons n stack ih =>
    rw [List.flatMap_cons, ← ih]
    exact preorderAll_append [n] stack

/-- A tree in pre-order is its root, and then its children in pre-order. -/
theorem preorder_eq (n : Node) : n.preorder = n :: n.children.flatMap preorder := by
  rw [preorder, preorderAll_cons, List.append_nil, preorderAll_eq_flatMap]

/-- A node of the tree is the root or stands below a child. -/
theorem mem_preorder_iff {m n : Node} :
    m ∈ n.preorder ↔ m = n ∨ ∃ c ∈ n.children, m ∈ c.preorder := by
  rw [preorder_eq, List.mem_cons, List.mem_flatMap]

theorem mem_preorder_self (n : Node) : n ∈ n.preorder := mem_preorder_iff.2 (.inl rfl)

/-- The nodes of a subtree are nodes of the tree. -/
theorem preorder_trans {l m n : Node} (hlm : l ∈ m.preorder) (hmn : m ∈ n.preorder) :
    l ∈ n.preorder := by
  induction n using treeInduction with
  | node n ih =>
    rcases mem_preorder_iff.1 hmn with rfl | ⟨c, hc, hmc⟩
    · exact hlm
    · exact mem_preorder_iff.2 (.inr ⟨c, hc, ih c hc hmc⟩)

/-- A child of a node is a node. -/
theorem child_mem_preorder {c m n : Node} (hc : c ∈ m.children) (hm : m ∈ n.preorder) :
    c ∈ n.preorder :=
  preorder_trans (mem_preorder_iff.2 (.inr ⟨c, hc, mem_preorder_self c⟩)) hm

/-- So is a field of a node. -/
theorem field_mem_preorder {c m n : Node} {name : String} (hc : m.field? name = some c)
    (hm : m ∈ n.preorder) : c ∈ n.preorder :=
  child_mem_preorder (List.mem_of_find?_eq_some hc) hm

/-- An expression without its wrappers stands in the same tree. -/
theorem bare_mem_preorder {m n : Node} (h : n.bare? = some m) : m ∈ n.preorder := by
  fun_induction bare? n with
  | case1 n inner hinner _ ih =>
    have hchild : inner ∈ n.children := namedChildren_subset (List.mem_of_head? hinner)
    exact preorder_trans (ih h) (child_mem_preorder hchild (mem_preorder_self n))
  | case2 n inner _ _ =>
    cases h
    exact mem_preorder_self _
  | case3 n _ _ => cases h
  | case4 n _ _ =>
    cases h
    exact mem_preorder_self _

/-- Markup is no function. -/
theorem not_isFunction_of_isJsx {n : Node} (h : n.isJsx = true) : n.isFunction = false := by
  simp only [isJsx, jsxKinds, List.contains_iff_mem, List.mem_cons, List.not_mem_nil, or_false] at h
  rcases h with h | h | h <;> simp [isFunction, functionKinds, h]

/-- A function is no markup. -/
theorem not_isJsx_of_isFunction {n : Node} (h : n.isFunction = true) : n.isJsx = false := by
  cases hjsx : n.isJsx with
  | false => rfl
  | true => simp [not_isFunction_of_isJsx hjsx] at h

/-! ### Lineages -/

mutual

/-- The lineages of a tree in pre-order: each node followed by the nodes above it, of which the
nearest comes first and `above` comes last. -/
def lineages (above : List Node) : Node → List (List Node)
  | ⟨index, kind, start, stop, field, isNamed, isMissing, children⟩ =>
    let lineage := ⟨index, kind, start, stop, field, isNamed, isMissing, children⟩ :: above
    lineage :: lineagesAll lineage children

/-- The lineages of a list of trees. -/
def lineagesAll (above : List Node) : List Node → List (List Node)
  | [] => []
  | c :: cs => lineages above c ++ lineagesAll above cs

end

theorem lineagesAll_eq_flatMap (above cs : List Node) :
    lineagesAll above cs = cs.flatMap (lineages above) := by
  induction cs with
  | nil => rw [lineagesAll, List.flatMap_nil]
  | cons c cs ih => rw [lineagesAll, ih, List.flatMap_cons]

/-- A lineage ends at the node or goes on below it. -/
theorem lineages_eq (above : List Node) (n : Node) :
    n.lineages above = (n :: above) :: n.children.flatMap (lineages (n :: above)) := by
  obtain ⟨index, kind, start, stop, field, isNamed, isMissing, children⟩ := n
  rw [lineages, lineagesAll_eq_flatMap]

/-- A lineage consists of nodes of the tree and of those given as above it. -/
theorem mem_preorder_of_mem_lineages {above l : List Node} {m n : Node} (hl : l ∈ n.lineages above)
    (hm : m ∈ l) : m ∈ n.preorder ∨ m ∈ above := by
  induction n using treeInduction generalizing above with
  | node n ih =>
    have own (h : m ∈ n :: above) : m ∈ n.preorder ∨ m ∈ above := by
      rcases List.mem_cons.1 h with rfl | h
      · exact .inl (mem_preorder_self m)
      · exact .inr h
    rw [lineages_eq, List.mem_cons, List.mem_flatMap] at hl
    rcases hl with rfl | ⟨c, hc, hl⟩
    · exact own hm
    · rcases ih c hc hl with h | h
      · exact .inl (preorder_trans h (child_mem_preorder hc (mem_preorder_self n)))
      · exact own h

/-! ### Numbers -/

mutual

/-- The nodes of a tree are numbered in pre-order, without gaps. -/
theorem map_index_numberFrom (next : Nat) (n : Node) :
    (numberFrom next n).preorder.map index = List.range' next n.size := by
  obtain ⟨_, kind, start, stop, field, isNamed, isMissing, children⟩ := n
  rw [numberFrom, preorder_eq, List.map_cons, map_index_numberAll, size, Nat.add_comm 1,
    List.range'_succ]
termination_by 2 * n.size
decreasing_by
  simp only [size]
  omega

/-- Numbers follow one another. -/
theorem map_index_numberAll (next : Nat) (cs : List Node) :
    ((numberAll next cs).flatMap preorder).map index = List.range' next (sizeAll cs) := by
  cases cs with
  | nil => rfl
  | cons c cs =>
    rw [numberAll, List.flatMap_cons, List.map_append, map_index_numberFrom, map_index_numberAll,
      sizeAll_cons, List.range'_append_1]
termination_by 2 * sizeAll cs + 1
decreasing_by
  all_goals have := size_pos c
  all_goals simp only [sizeAll_cons]
  all_goals omega

end

/-- No two nodes of a numbered tree have the same number. -/
theorem nodup_index_numbered (n : Node) : (n.numbered.preorder.map index).Nodup := by
  rw [numbered, map_index_numberFrom]
  exact List.nodup_range'

/-! ### Parents -/

variable {sort : Node → Bool}

/-- The spans of the nodes of some sort are distinct. -/
def DistinctSpans (sort : Node → Bool) (n : Node) : Prop :=
  ((n.preorder.filter sort).map span).Nodup

instance (sort : Node → Bool) (n : Node) : Decidable (DistinctSpans sort n) :=
  inferInstanceAs (Decidable (List.Nodup _))

/-- A construct of its own that is given by its kind, its span and its children. -/
def plain (kind : String) (start stop : Nat) (children : List Node)
    (field : Option String := none) : Node :=
  { index := 0, kind, start, stop, field, isNamed := true, isMissing := false, children }

/-- Do nodes follow one another between two offsets? -/
def followBetween (cursor stop : Nat) : List Node → Bool
  | [] => decide (cursor ≤ stop)
  | c :: cs =>
    decide (cursor ≤ c.start) && decide (c.start ≤ c.stop) && followBetween c.stop stop cs

/-- Do the children of every node follow one another in its span? -/
def isNested (n : Node) : Bool :=
  n.preorder.all fun p => followBetween p.start p.stop p.children

namespace DistinctSpans

variable {t : Node}

/-- Where spans differ, a span tells its node. -/
theorem eq_of_span (h : DistinctSpans sort t) {m n : Node} (hm : m ∈ t.preorder)
    (hn : n ∈ t.preorder) (hsm : sort m = true) (hsn : sort n = true) (hspan : m.span = n.span) :
    m = n :=
  List.inj_on_of_nodup_map h (List.mem_filter.2 ⟨hm, hsm⟩) (List.mem_filter.2 ⟨hn, hsn⟩) hspan

/-- The spans that the nodes of some sort have in the children of a tree. -/
theorem flatMap_children (h : DistinctSpans sort t) :
    (t.children.flatMap fun c => (c.preorder.filter sort).map span).Nodup := by
  have all : ((t :: t.children.flatMap preorder).filter sort).map span |>.Nodup := by
    rw [← preorder_eq]
    exact h
  rw [← List.map_flatMap, ← List.filter_flatMap]
  exact all.sublist (((List.sublist_cons_self _ _).filter _).map _)

/-- Spans differ below a child. -/
theorem child (h : DistinctSpans sort t) {c : Node} (hc : c ∈ t.children) :
    DistinctSpans sort c :=
  (List.nodup_flatMap.1 h.flatMap_children).1 c hc

/-- A node of the sort is a node of one child only. -/
theorem child_unique (h : DistinctSpans sort t) {n c d : Node} (hn : sort n = true)
    (hc : c ∈ t.children) (hd : d ∈ t.children) (hnc : n ∈ c.preorder) (hnd : n ∈ d.preorder) :
    c = d := by
  by_contra hne
  have : Std.Symm
      (Function.onFun List.Disjoint fun c : Node => (c.preorder.filter sort).map span) :=
    ⟨fun _ _ h => List.disjoint_symm h⟩
  have apart := (List.nodup_flatMap.1 h.flatMap_children).2.forall hc hd hne
  exact apart (List.mem_map_of_mem (List.mem_filter.2 ⟨hnc, hn⟩))
    (List.mem_map_of_mem (List.mem_filter.2 ⟨hnd, hn⟩))

/-- A node of the sort has one parent only. -/
theorem parent_unique (h : DistinctSpans sort t) {n p q : Node} (hn : sort n = true)
    (hp : p ∈ t.preorder) (hq : q ∈ t.preorder) (hnp : n ∈ p.children) (hnq : n ∈ q.children) :
    p = q := by
  induction t using treeInduction with
  | node t ih =>
    -- A child of the root that is also a proper descendant of a child would be below itself.
    have root_only : ∀ {c r : Node}, c ∈ t.children → r ∈ c.preorder → n ∈ r.children →
        n ∉ t.children := by
      intro c r hc hr hnr hnt
      obtain rfl := h.child_unique hn hnt hc (mem_preorder_self n) (child_mem_preorder hnr hr)
      have := size_child hnr
      have := size_le_of_mem_preorder hr
      omega
    rcases mem_preorder_iff.1 hp with rfl | ⟨c, hc, hpc⟩
    · rcases mem_preorder_iff.1 hq with rfl | ⟨d, hd, hqd⟩
      · rfl
      · exact absurd hnp (root_only hd hqd hnq)
    · rcases mem_preorder_iff.1 hq with rfl | ⟨d, hd, hqd⟩
      · exact absurd hnq (root_only hc hpc hnp)
      · obtain rfl := h.child_unique hn hc hd (child_mem_preorder hnp hpc)
          (child_mem_preorder hnq hqd)
        exact ih c hc (h.child hc) hpc hqd

end DistinctSpans

end Sveltify.Node
