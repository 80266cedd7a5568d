import Sveltify.Proofs.Syntax.Tree

namespace Sveltify.Node

/-!
# Traversals visit places in order

The traversals keep the trees that are still to be visited in a list. What they yield is told by the
places of a tree: a place is given by the path that leads to it, with the number of the child to
take at each step down. Pre-order is the lexical order of paths.

* `search`: the search by recursion, a node before its children and these from left to right;
* `descendantsIn_eq_flatMap`: whatever the search by a list has still to visit, it yields what the
  recursive search of these trees yields, one after another;
* `at?`: the node at a place;
* `hits`: the places where the recursive search finds something;
* `Visits`: some nodes are those at certain places, each visited once and in pre-order;
* `IsFound`: the places below a node at which a search finds something;
* `traversals_visit_in_order`: the places that the traversals visit.
-/

/-! ### Recursive search -/

section

variable (test cut : Node → Bool)

mutual

/-- The nodes of a tree that satisfy `test`, in pre-order, leaving out everything below a node that
satisfies `cut`. -/
def search : Node → List Node
  | ⟨index, kind, start, stop, field, isNamed, isMissing, children⟩ =>
    let n : Node := ⟨index, kind, start, stop, field, isNamed, isMissing, children⟩
    (if test n then [n] else []) ++ if cut n then [] else searchAll children

/-- The same for a list of trees. -/
def searchAll : List Node → List Node
  | [] => []
  | c :: cs => search c ++ searchAll cs

end

end

variable {test cut : Node → Bool} {n : Node} {path : List Nat}

theorem searchAll_eq_flatMap (cs : List Node) :
    searchAll test cut cs = cs.flatMap (search test cut) := by
  induction cs with
  | nil => rw [searchAll, List.flatMap_nil]
  | cons c cs ih => rw [searchAll, ih, List.flatMap_cons]

/-- A node is tested before its children. -/
theorem search_eq (n : Node) : n.search test cut =
    (if test n then [n] else []) ++ if cut n then [] else n.children.flatMap (search test cut) := by
  obtain ⟨index, kind, start, stop, field, isNamed, isMissing, children⟩ := n
  rw [search, searchAll_eq_flatMap]

/-- What is still to be visited is searched tree by tree. -/
theorem descendantsIn_eq_flatMap (stack : List Node) :
    descendantsIn test cut stack = stack.flatMap (search test cut) := by
  -- One round puts the children of the first tree, or nothing, in its place.
  have round (n : Node) (rest : List Node) :
      (if _h : cut n then rest else n.children ++ rest).flatMap (search test cut) =
        (if cut n then [] else n.children.flatMap (search test cut)) ++
          rest.flatMap (search test cut) := by
    by_cases h : cut n = true
    · rw [dif_pos h, if_pos h, List.nil_append]
    · rw [dif_neg h, if_neg h, List.flatMap_append]
  fun_induction descendantsIn test cut stack with
  | case1 => rfl
  | case2 n rest found htest ih =>
    rw [List.flatMap_cons, search_eq, if_pos htest, List.append_assoc, ← round, ← ih]
    rfl
  | case3 n rest found htest ih =>
    rw [List.flatMap_cons, search_eq, if_neg htest, List.nil_append, ← round, ← ih]

/-- The nodes of a tree in pre-order are found by a search for anything. -/
theorem preorder_eq_search (n : Node) :
    n.preorder = n.search (fun _ => true) (fun _ => false) := by
  induction n using treeInduction with
  | node n ih =>
    rw [preorder_eq, search_eq, if_pos rfl, if_neg Bool.false_ne_true, List.singleton_append,
      List.flatMap_congr ih]

/-- There are as many nodes as the size says. -/
theorem length_preorderAll (stack : List Node) : (preorderAll stack).length = sizeAll stack := by
  fun_induction preorderAll stack with
  | case1 => rfl
  | case2 n rest ih =>
    rw [List.length_cons, ih, sizeAll_append, sizeAll_cons, size_eq]
    omega

/-! ### Places -/

/-- The node at the end of a path. Children are numbered from zero. -/
def at? : Node → List Nat → Option Node
  | n, [] => some n
  | n, i :: path => n.children[i]?.bind fun c => c.at? path

/-- A path starts with a child. -/
theorem at?_cons {i : Nat} {c : Node} (hc : n.children[i]? = some c) (path : List Nat) :
    n.at? (i :: path) = c.at? path := by
  rw [at?, hc, Option.bind_some]

section

variable (test cut : Node → Bool)

mutual

/-- The places where a search finds something. -/
def hits : Node → List (List Nat)
  | ⟨index, kind, start, stop, field, isNamed, isMissing, children⟩ =>
    let n : Node := ⟨index, kind, start, stop, field, isNamed, isMissing, children⟩
    (if test n then [[]] else []) ++ if cut n then [] else hitsFrom 0 children

/-- The same for the children of a node from number `i` on. -/
def hitsFrom (i : Nat) : List Node → List (List Nat)
  | [] => []
  | c :: cs => (hits c).map (i :: ·) ++ hitsFrom (i + 1) cs

end

end

theorem hits_eq (n : Node) : n.hits test cut =
    (if test n then [[]] else []) ++ if cut n then [] else hitsFrom test cut 0 n.children := by
  obtain ⟨index, kind, start, stop, field, isNamed, isMissing, children⟩ := n
  rw [hits]

/-- A hit among the children. -/
theorem mem_hitsFrom_iff {i : Nat} {cs : List Node} : path ∈ hitsFrom test cut i cs ↔
    ∃ j c rest, cs[j]? = some c ∧ rest ∈ c.hits test cut ∧ path = (i + j) :: rest := by
  induction cs generalizing i with
  | nil => simp [hitsFrom]
  | cons c cs ih =>
    rw [hitsFrom, List.mem_append, List.mem_map, ih]
    constructor
    · rintro (⟨rest, hrest, rfl⟩ | ⟨j, d, rest, hd, hrest, rfl⟩)
      · exact ⟨0, c, rest, rfl, hrest, rfl⟩
      · exact ⟨j + 1, d, rest, hd, hrest, by rw [Nat.add_right_comm, Nat.add_assoc]⟩
    · rintro ⟨j, d, rest, hd, hrest, rfl⟩
      cases j with
      | zero =>
        cases hd
        exact .inl ⟨rest, hrest, rfl⟩
      | succ j => exact .inr ⟨j, d, rest, hd, hrest, by rw [Nat.add_right_comm, Nat.add_assoc]⟩

/-- At these places stand the nodes that are found, in the same order. -/
theorem map_at?_hitsFrom {n : Node} {i : Nat} {cs : List Node} (hcs : n.children.drop i = cs)
    (hall : ∀ c ∈ cs, (c.hits test cut).map c.at? = (c.search test cut).map some) :
    (hitsFrom test cut i cs).map n.at? = (cs.flatMap (search test cut)).map some := by
  induction cs generalizing i with
  | nil => rfl
  | cons c cs ih =>
    have hc : n.children[i]? = some c := by rw [← List.head?_drop, hcs, List.head?_cons]
    have hrest : n.children.drop (i + 1) = cs := by rw [← List.tail_drop, hcs, List.tail_cons]
    have below : (n.at? ∘ (i :: ·)) = c.at? := funext (at?_cons hc)
    rw [hitsFrom, List.map_append, List.map_map, below, hall c List.mem_cons_self,
      ih hrest fun d hd => hall d (List.mem_cons_of_mem _ hd), List.flatMap_cons, List.map_append]

/-- The search finds the nodes at its hits. -/
theorem map_at?_hits (n : Node) : (n.hits test cut).map n.at? = (n.search test cut).map some := by
  induction n using treeInduction with
  | node n ih =>
    have children : (hitsFrom test cut 0 n.children).map n.at? =
        (n.children.flatMap (search test cut)).map some := map_at?_hitsFrom rfl ih
    rw [hits_eq, search_eq, List.map_append, List.map_append]
    congr 1
    · cases test n <;> rfl
    · cases cut n
      · exact children
      · rfl

/-- They are in lexical order. -/
theorem hitsFrom_sorted {i : Nat} {cs : List Node}
    (hall : ∀ c ∈ cs, (c.hits test cut).Pairwise (List.Lex (· < ·))) :
    (hitsFrom test cut i cs).Pairwise (List.Lex (· < ·)) := by
  induction cs generalizing i with
  | nil => exact .nil
  | cons c cs ih =>
    rw [hitsFrom, List.pairwise_append, List.pairwise_map]
    refine ⟨(hall c List.mem_cons_self).imp .cons,
      ih fun d hd => hall d (List.mem_cons_of_mem _ hd), fun a ha b hb => ?_⟩
    obtain ⟨p, -, rfl⟩ := List.mem_map.1 ha
    obtain ⟨j, d, rest, -, -, rfl⟩ := mem_hitsFrom_iff.1 hb
    exact .rel (by omega)

/-- Hits come in order. -/
theorem hits_sorted (n : Node) : (n.hits test cut).Pairwise (List.Lex (· < ·)) := by
  induction n using treeInduction with
  | node n ih =>
    have children : (if cut n then [] else hitsFrom test cut 0 n.children).Pairwise
        (List.Lex (· < ·)) := by
      split
      · exact .nil
      · exact hitsFrom_sorted ih
    rw [hits_eq]
    split
    · refine .cons (fun b hb => ?_) children
      split at hb
      · cases hb
      · obtain ⟨j, c, rest, -, -, rfl⟩ := mem_hitsFrom_iff.1 hb
        exact .nil
    · exact children

theorem nil_mem_hits_iff : [] ∈ n.hits test cut ↔ test n = true := by
  have below : [] ∉ hitsFrom test cut 0 n.children := fun h => by
    obtain ⟨j, c, rest, -, -, h⟩ := mem_hitsFrom_iff.1 h
    cases h
  rw [hits_eq]
  cases test n <;> cases cut n <;> simp [below]

theorem cons_mem_hitsFrom_iff {i : Nat} : i :: path ∈ hitsFrom test cut 0 n.children ↔
    ∃ c, n.children[i]? = some c ∧ path ∈ c.hits test cut := by
  rw [mem_hitsFrom_iff]
  constructor
  · rintro ⟨j, c, rest, hc, hrest, h⟩
    rw [Nat.zero_add] at h
    cases h
    exact ⟨c, hc, hrest⟩
  · rintro ⟨c, hc, hpath⟩
    exact ⟨i, c, path, hc, hpath, by rw [Nat.zero_add]⟩

/-- A hit below a node, if the search goes on. -/
theorem cons_mem_hits_iff {i : Nat} : i :: path ∈ n.hits test cut ↔
    cut n = false ∧ ∃ c, n.children[i]? = some c ∧ path ∈ c.hits test cut := by
  rw [← cons_mem_hitsFrom_iff, hits_eq]
  cases test n <;> cases cut n <;> simp

/-- Something is found at a place just if the node there passes the test and the search is cut at no
node above it. -/
theorem mem_hits_iff : path ∈ n.hits test cut ↔
    (∃ m, n.at? path = some m ∧ test m = true) ∧
      ∀ above m, above <+: path → above ≠ path → n.at? above = some m → cut m = false := by
  induction path generalizing n with
  | nil =>
    rw [nil_mem_hits_iff]
    constructor
    · intro h
      exact ⟨⟨n, rfl, h⟩, fun above m habove hne => absurd (List.prefix_nil.1 habove) hne⟩
    · rintro ⟨⟨m, hm, h⟩, -⟩
      cases hm
      exact h
  | cons i path ih =>
    rw [cons_mem_hits_iff]
    constructor
    · rintro ⟨hcut, c, hc, hpath⟩
      obtain ⟨⟨m, hm, htest⟩, hopen⟩ := ih.1 hpath
      refine ⟨⟨m, (at?_cons hc path).trans hm, htest⟩, fun above m' habove hne hm' => ?_⟩
      rcases List.prefix_cons_iff.1 habove with rfl | ⟨rest, rfl, hrest⟩
      · cases hm'
        exact hcut
      · exact hopen rest m' hrest (fun h => hne (h ▸ rfl)) ((at?_cons hc rest).symm.trans hm')
    · rintro ⟨⟨m, hm, htest⟩, hopen⟩
      obtain ⟨c, hc, hm⟩ := Option.bind_eq_some_iff.1 hm
      refine ⟨hopen [] n List.nil_prefix (by simp) rfl, c, hc, ih.2 ⟨⟨m, hm, htest⟩, ?_⟩⟩
      intro above m' habove hne hm'
      exact hopen (i :: above) m' ((List.prefix_cons_inj i).2 habove) (by simpa using hne)
        ((at?_cons hc above).trans hm')

/-! ### What the traversals visit -/

/-- The nodes are those at the places that satisfy `P`, each visited once and in pre-order. -/
def Visits (n : Node) (P : List Nat → Prop) (visited : List Node) : Prop :=
  ∃ places : List (List Nat), places.Pairwise (List.Lex (· < ·)) ∧ (∀ path, path ∈ places ↔ P path) ∧
    visited.map some = places.map n.at?

/-- The place is that of a proper descendant which passes the test, and no proper descendant above
it is pruned. -/
structure IsFound (n : Node) (test : Node → Bool) (prune : Option (Node → Bool))
    (path : List Nat) : Prop where
  below : path ≠ []
  passes : ∃ m, n.at? path = some m ∧ test m = true
  unpruned : ∀ p ∈ prune, ∀ above m, above <+: path → above ≠ [] → above ≠ path →
    n.at? above = some m → p m = false

/-- Preorder visits every path. -/
theorem visits_preorder (n : Node) :
    Visits n (fun path => (n.at? path).isSome = true) n.preorder := by
  refine ⟨_, hits_sorted n, fun path => ?_, by rw [preorder_eq_search, map_at?_hits]⟩
  rw [mem_hits_iff]
  simp [Option.isSome_iff_exists]

/-- What is found below the node. -/
theorem isFound_iff {prune : Option (Node → Bool)} : IsFound n test prune path ↔
    path ∈ hitsFrom test (prune.getD fun _ => false) 0 n.children := by
  cases path with
  | nil =>
    refine ⟨fun h => absurd rfl h.below, fun h => ?_⟩
    obtain ⟨j, c, rest, -, -, h⟩ := mem_hitsFrom_iff.1 h
    cases h
  | cons i path =>
    -- A path below the node leads to a child, and goes on from there.
    rw [cons_mem_hitsFrom_iff]
    constructor
    · rintro ⟨-, ⟨m, hm, htest⟩, hopen⟩
      obtain ⟨c, hc, hm⟩ := Option.bind_eq_some_iff.1 hm
      refine ⟨c, hc, mem_hits_iff.2 ⟨⟨m, hm, htest⟩, fun above m' habove hne hm' => ?_⟩⟩
      cases prune with
      | none => rfl
      | some p =>
        exact hopen p rfl (i :: above) m' ((List.prefix_cons_inj i).2 habove) (by simp)
          (by simpa using hne) ((at?_cons hc above).trans hm')
    · rintro ⟨c, hc, hpath⟩
      obtain ⟨⟨m, hm, htest⟩, hopen⟩ := mem_hits_iff.1 hpath
      refine ⟨by simp, ⟨m, (at?_cons hc path).trans hm, htest⟩, ?_⟩
      intro p hp above m' habove hproper hne hm'
      obtain rfl : prune = some p := hp
      obtain ⟨rest, rfl, hrest⟩ := (List.prefix_cons_iff.1 habove).resolve_left hproper
      exact hopen rest m' hrest (fun h => hne (h ▸ rfl)) ((at?_cons hc rest).symm.trans hm')

/-- The search visits what it should find. -/
theorem visits_descendantsWhere (n : Node) (test : Node → Bool) (prune : Option (Node → Bool)) :
    Visits n (IsFound n test prune) (n.descendantsWhere test (prune.getD fun _ => false)) := by
  refine ⟨hitsFrom test (prune.getD fun _ => false) 0 n.children,
    hitsFrom_sorted fun c _ => hits_sorted c, fun path => isFound_iff.symm, ?_⟩
  rw [descendantsWhere, descendantsIn_eq_flatMap]
  symm
  exact map_at?_hitsFrom rfl fun c _ => map_at?_hits c

/-- **Traversals.** A tree in pre-order is its root and then its children in pre-order, from left to
right: every place of the tree is visited, once and in order, in as many rounds as there are nodes.
A search below a node yields what the recursive search of its children yields: the proper
descendants that pass the test and have no pruned node between them and the start, again each place
once and in order. A pruned node is itself still tested. -/
theorem traversals_visit_in_order (n : Node) :
    n.preorder = n :: n.children.flatMap preorder ∧
      Visits n (fun path => (n.at? path).isSome = true) n.preorder ∧
      n.preorder.length = n.size ∧
      ∀ (test : Node → Bool) (prune : Option (Node → Bool)),
        n.descendantsWhere test (prune.getD fun _ => false) =
            n.children.flatMap (search test (prune.getD fun _ => false)) ∧
          Visits n (IsFound n test prune)
            (n.descendantsWhere test (prune.getD fun _ => false)) := by
  refine ⟨preorder_eq n, visits_preorder n, ?_, fun test prune =>
    ⟨descendantsIn_eq_flatMap n.children, visits_descendantsWhere n test prune⟩⟩
  rw [preorder, length_preorderAll, sizeAll_cons, sizeAll_nil, Nat.add_zero]

end Sveltify.Node
