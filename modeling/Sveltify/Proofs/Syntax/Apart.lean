import Mathlib.Data.List.Flatten
import Mathlib.Data.List.Perm.Subperm
import Sveltify.Proofs.Syntax.Tree

namespace Sveltify.Node

open List

/-!
# Trees that stand apart

Readers of a syntax tree go on with some of its parts. If these stand apart, then what is found in
one of them is not found again in another.

* `Gathers f`: what `f` lists for a tree holds what it lists for the children, one after another;
* `Apart ms ns`: the trees `ms` stand in the trees `ns`, no two of them at the same place. So
  whatever is gathered from all of `ms` is gathered from `ns`, at least as often.
-/

/-- What is listed for a tree holds what is listed for its children. -/
def Gathers (f : Node → List Node) : Prop := ∀ n, n.children.flatMap f <+~ f n

/-- Preorder gathers part by part. -/
theorem gathers_preorder : Gathers preorder := by
  intro n
  rw [preorder_eq]
  exact (sublist_cons_self _ _).subperm

/-- The trees of the first list stand in those of the second, no two at the same place. -/
def Apart (ms ns : List Node) : Prop :=
  ∀ f : Node → List Node, Gathers f → ms.flatMap f <+~ ns.flatMap f

theorem flatMap_subperm {α β : Type} {as bs : List α} (f : α → List β) (h : as <+~ bs) :
    as.flatMap f <+~ bs.flatMap f := by
  obtain ⟨cs, hperm, hsub⟩ := h
  exact (hperm.symm.flatMap_right f).subperm.trans (hsub.flatMap f).subperm

theorem nodup_map_of_subperm {α β : Type} {as bs : List α} {f : α → β} (h : as <+~ bs)
    (hbs : (bs.map f).Nodup) : (as.map f).Nodup := by
  obtain ⟨cs, hperm, hsub⟩ := h
  exact (hperm.map f).nodup_iff.1 (hbs.sublist (hsub.map f))

namespace Apart

variable {ms ms' ns ns' : List Node} {m n : Node}

/-- No parts at all. -/
theorem nil (ns : List Node) : Apart [] ns := fun _ _ => nil_subperm

/-- Nodes are parts of themselves. -/
theorem refl (ns : List Node) : Apart ns ns := fun _ _ => Subperm.refl _

/-- Parts of parts. -/
theorem trans (h : Apart ms ns) (h' : Apart ns ns') : Apart ms ns' :=
  fun f hf => (h f hf).trans (h' f hf)

/-- Some of the nodes. -/
theorem of_subperm (h : ms <+~ ns) : Apart ms ns := fun f _ => flatMap_subperm f h

/-- Parts side by side. -/
theorem append (h : Apart ms ns) (h' : Apart ms' ns') : Apart (ms ++ ms') (ns ++ ns') := by
  intro f hf
  rw [flatMap_append, flatMap_append]
  exact (h f hf).append (h' f hf)

/-- One tree after another may be replaced by parts of it. -/
theorem flatMap {α : Type} {g h : α → List Node} {as : List α}
    (hgh : ∀ a ∈ as, Apart (g a) (h a)) : Apart (as.flatMap g) (as.flatMap h) := by
  induction as with
  | nil => exact nil _
  | cons a as ih =>
    rw [flatMap_cons, flatMap_cons]
    exact (hgh a mem_cons_self).append (ih fun b hb => hgh b (mem_cons_of_mem _ hb))

/-- Some children of a tree stand apart in it. -/
theorem of_children (h : ms <+~ n.children) : Apart ms [n] := by
  intro f hf
  rw [flatMap_singleton]
  exact (flatMap_subperm f h).trans (hf n)

/-- Named children lie apart. -/
theorem namedChildren (n : Node) : Apart n.namedChildren [n] :=
  of_children filter_sublist.subperm

/-- A child is a part. -/
theorem child (h : m ∈ n.children) : Apart [m] [n] := of_children (singleton_subperm_iff.2 h)

/-- A node of a tree stands in it. -/
theorem of_mem_preorder (h : m ∈ n.preorder) : Apart [m] [n] := by
  induction n using treeInduction with
  | node n ih =>
    rcases mem_preorder_iff.1 h with rfl | ⟨c, hc, hmc⟩
    · exact refl _
    · exact (ih c hc hmc).trans (child hc)

/-- So is a field. -/
theorem field {name : String} (h : n.field? name = some m) : Apart [m] [n] :=
  child (mem_of_find?_eq_some h)

/-- Children in different roles stand apart. -/
theorem fields {first second : String} {c d : Node} (hne : first ≠ second)
    (hc : n.field? first = some c) (hd : n.field? second = some d) : Apart [c, d] [n] := by
  have hcd : c ≠ d := by
    rintro rfl
    have hfirst : c.field = some first := by simpa using find?_some hc
    have hsecond : c.field = some second := by simpa using find?_some hd
    rw [hfirst] at hsecond
    exact hne (Option.some.inj hsecond)
  refine of_children (subperm_of_subset (by simp [hcd]) ?_)
  intro x hx
  rcases mem_cons.1 hx with rfl | hx
  · exact mem_of_find?_eq_some hc
  · rw [mem_singleton.1 hx]
    exact mem_of_find?_eq_some hd

/-- So is the first named child. -/
theorem firstNamed (h : n.firstNamed? = some m) : Apart [m] [n] :=
  child (namedChildren_subset (mem_of_head? h))

/-- So is what stands in parentheses. -/
theorem bare (h : n.bare? = some m) : Apart [m] [n] := of_mem_preorder (bare_mem_preorder h)

/-- The trees that stand in others are nodes of these. -/
theorem mem_preorder (h : Apart ms ns) (hm : m ∈ ms) : ∃ n ∈ ns, m ∈ n.preorder := by
  have gathered : m ∈ ms.flatMap preorder := mem_flatMap.2 ⟨m, hm, mem_preorder_self m⟩
  exact mem_flatMap.1 ((h preorder gathers_preorder).subset gathered)

end Apart

end Sveltify.Node
