import Mathlib.Data.List.Basic
import Sveltify.Proofs.Syntax.Tree
import Sveltify.Scope.Reference

namespace Sveltify.Scope

/-!
# The nodes that bind names

* `boundNames_name`, `boundNames_role`, `boundNames_compound`: the names of a pattern by its kind;
* `binders`: the nodes of a pattern at which it binds a name;
* `map_text_binders`: the names that a pattern binds are the texts of these nodes;
* `boundNamesOf_subset_bindingsWithin`: what a declarator binds is declared in the tree around it;
* `referents`: the declarations that a name refers to, given what the nodes around it declare;
* `referents_eq_iff`: when a name still refers to the same declarations after a renaming.
-/

variable {src : Source} {p : Node}

/-! ### Names by the kind of pattern -/

/-- A name binds itself. -/
theorem boundNames_name
    (h : p.kind = "identifier" ∨ p.kind = "shorthand_property_identifier_pattern") :
    boundNames src p = [src.text p] := by
  rw [boundNames, if_pos (by simpa using h)]

/-- A pattern with another one in a role binds what that one binds. -/
theorem boundNames_role {role : String} (h : patternRole? p.kind = some role) :
    boundNames src p = boundNamesOf src (p.field? role) := by
  rw [boundNames, if_neg]
  · rw [h]
    dsimp only
    unfold boundNamesOf
    cases p.field? role <;> rfl
  · intro hname
    rw [Bool.or_eq_true, beq_iff_eq, beq_iff_eq] at hname
    rcases hname with hname | hname <;> simp [hname, patternRole?] at h

/-- A pattern made of several binds what these bind. -/
theorem boundNames_compound (h : p.kind ∈ compoundPatterns) :
    boundNames src p = p.namedChildren.flatMap (boundNames src) := by
  have role : patternRole? p.kind = none := by
    simp only [compoundPatterns, List.mem_cons, List.not_mem_nil, or_false] at h
    rcases h with h | h | h | h <;> simp [h, patternRole?]
  rw [boundNames, if_neg, role]
  · dsimp only
    rw [if_pos (List.contains_iff_mem.2 h)]
    simp only [List.flatMap_subtype, List.unattach_attach]
  · simp only [compoundPatterns, List.mem_cons, List.not_mem_nil, or_false] at h
    rcases h with h | h | h | h <;> simp [h]

/-! ### Binders -/

/-- The nodes at which a pattern binds names, in order. -/
def binders (p : Node) : List Node :=
  if p.kind == "identifier" || p.kind == "shorthand_property_identifier_pattern" then [p]
  else
    match patternRole? p.kind with
    | some role =>
      match _h : p.field? role with
      | some inner => binders inner
      | none => []
    | none =>
      if compoundPatterns.contains p.kind then
        p.namedChildren.attach.flatMap fun ⟨c, _⟩ => binders c
      else []
termination_by p.size
decreasing_by
  · exact Node.size_field _h
  · exact Node.size_namedChild ‹_›

/-- A pattern binds the texts of its binders. -/
theorem map_text_binders (src : Source) (p : Node) :
    (binders p).map src.text = boundNames src p := by
  fun_induction binders p with
  | case1 p hname => rw [boundNames, if_pos hname, List.map_singleton]
  | case2 p hname role hrole inner hinner ih => rw [ih, boundNames_role hrole, hinner]; rfl
  | case3 p hname role hrole hinner => rw [boundNames_role hrole, hinner]; rfl
  | case4 p hname hrole hcompound ih =>
    rw [boundNames_compound (List.contains_iff_mem.1 hcompound), List.map_flatMap]
    simp only [List.flatMap_subtype, List.unattach_attach]
    exact List.flatMap_congr fun c hc => ih c hc
  | case5 p hname hrole hcompound =>
    rw [boundNames, if_neg hname, hrole]
    dsimp only
    rw [if_neg hcompound, List.map_nil]

/-- The nodes at which a function declares its parameters. -/
def parameterScope (n : Node) : List Node :=
  if n.isFunction then (parametersOf n).flatMap binders else []

/-- Parameters are in scope by their names. -/
theorem map_text_parameterScope (src : Source) {f : Node} (h : f.isFunction = true) :
    (parameterScope f).map src.text = (parametersOf f).flatMap (boundNames src) := by
  rw [parameterScope, if_pos h, List.map_flatMap]
  exact List.flatMap_congr fun p _ => map_text_binders src p

/-! ### Declarators -/

/-- What the pattern of a declarator binds is declared in every tree that holds the declarator. -/
theorem boundNamesOf_subset_bindingsWithin {d n : Node} (hd : d ∈ n.preorder)
    (hkind : d.kind = "variable_declarator") :
    boundNamesOf src (d.field? "name") ⊆ bindingsWithin src n := by
  intro name hname
  refine List.mem_flatMap.2 ⟨d, hd, ?_⟩
  have notFunction : d.isFunction = false := by
    simp [Node.isFunction, Node.functionKinds, hkind]
  simpa [ownBindings, notFunction, hkind] using hname

/-! ### What a name refers to -/

section Referents

variable (text : Node → String) (scope : Node → List Node) (name : String)

/-- The declarations of a name by one node; `scope` gives all that the node declares. -/
def declaredBy (n : Node) : List Node := (scope n).filter (text · == name)

/-- The declarations that a name refers to: those by the nearest node of the lineage that has some.
There are none if the name is free. -/
def referents : List Node → List Node
  | [] => []
  | n :: above =>
    if (declaredBy text scope name n).isEmpty then referents above else declaredBy text scope name n

/-- The nodes of a lineage up to the first that declares the name. -/
def reach : List Node → List Node
  | [] => []
  | n :: above =>
    if (declaredBy text scope name n).isEmpty then n :: reach above else [n]

variable {text scope name} {text' : Node → String} {name' : String} {d n : Node}
  {above l : List Node}

theorem mem_of_mem_reach (h : n ∈ reach text scope name l) : n ∈ l := by
  induction l with
  | nil => cases h
  | cons m above ih =>
    rw [reach] at h
    split at h
    · rcases List.mem_cons.1 h with rfl | h
      · exact List.mem_cons_self ..
      · exact List.mem_cons_of_mem _ (ih h)
    · rw [List.mem_singleton.1 h]
      exact List.mem_cons_self ..

/-- What a scope declares under a name. -/
theorem mem_declaredBy : d ∈ declaredBy text scope name n ↔ d ∈ scope n ∧ text d = name := by
  rw [declaredBy, List.mem_filter, beq_iff_eq]

/-- The nearest declaration is meant. -/
theorem referents_of_declared (h : declaredBy text scope name n ≠ []) :
    referents text scope name (n :: above) = declaredBy text scope name n := by
  rw [referents, if_neg (by simpa using h)]

/-- A scope without one is passed over. -/
theorem referents_of_undeclared (h : declaredBy text scope name n = []) :
    referents text scope name (n :: above) = referents text scope name above := by
  rw [referents, if_pos (by simpa using h)]

/-- A referent has the name. -/
theorem text_of_mem_referents (h : d ∈ referents text scope name l) : text d = name := by
  induction l with
  | nil => cases h
  | cons n above ih =>
    by_cases hd : declaredBy text scope name n = []
    · rw [referents_of_undeclared hd] at h
      exact ih h
    · rw [referents_of_declared hd] at h
      exact (mem_declaredBy.1 h).2

theorem declaredBy_eq_iff :
    declaredBy text' scope name' n = declaredBy text scope name n ↔
      ∀ d ∈ scope n, text' d = name' ↔ text d = name := by
  constructor
  · intro h d hd
    have := congrArg (d ∈ ·) h
    simpa [mem_declaredBy, hd] using this
  · intro h
    refine List.filter_congr fun d hd => ?_
    rw [Bool.eq_iff_iff, beq_iff_eq, beq_iff_eq]
    exact h d hd

/-- A name goes on to refer to the same declarations just if the nodes in its reach declare it at
the same places as before. -/
theorem referents_eq_iff :
    referents text' scope name' l = referents text scope name l ↔
      ∀ n ∈ reach text scope name l, ∀ d ∈ scope n, text' d = name' ↔ text d = name := by
  induction l with
  | nil => simp [referents, reach]
  | cons n above ih =>
    by_cases hd : declaredBy text scope name n = []
    · rw [reach, if_pos (by simpa using hd), List.forall_mem_cons, ← ih, ← declaredBy_eq_iff, hd,
        referents_of_undeclared hd]
      refine ⟨fun h => ?_, fun h => by rw [referents_of_undeclared h.1, h.2]⟩
      -- What the node newly declares would have been declared by it before.
      have hd' : declaredBy text' scope name' n = [] := by
        by_contra hne
        rw [referents_of_declared hne] at h
        obtain ⟨d, hmem⟩ := List.exists_mem_of_ne_nil _ hne
        have hold := text_of_mem_referents (h ▸ hmem)
        have : d ∈ declaredBy text scope name n :=
          mem_declaredBy.2 ⟨(mem_declaredBy.1 hmem).1, hold⟩
        rw [hd] at this
        cases this
      rw [referents_of_undeclared hd'] at h
      exact ⟨hd', h⟩
    · rw [reach, if_neg (by simpa using hd), List.forall_mem_singleton, ← declaredBy_eq_iff,
        referents_of_declared hd]
      refine ⟨fun h => ?_, fun h => by rw [referents_of_declared (h ▸ hd), h]⟩
      -- What the node declared before cannot be declared further up only.
      have hd' : declaredBy text' scope name' n ≠ [] := by
        intro hempty
        obtain ⟨d, hmem⟩ := List.exists_mem_of_ne_nil _ hd
        have hnew := text_of_mem_referents (h.symm ▸ hmem)
        have : d ∈ declaredBy text' scope name' n :=
          mem_declaredBy.2 ⟨(mem_declaredBy.1 hmem).1, hnew⟩
        rw [hempty] at this
        cases this
      rwa [referents_of_declared hd'] at h

end Referents

end Sveltify.Scope
