import Sveltify.Proofs.Expression.Exact
import Sveltify.Proofs.Expression.ReactFree

namespace Sveltify

/-!
# Text that a conversion leaves alone

A conversion copies what stands between the nodes that it changes. Where it changes nothing but the
names with a substitute, these are woven into the source text, as long as the spans of the nodes fit
together. Where it changes nothing at all, the converted text is the source text.

* `Untouched`: nothing in a tree is changed but for the names with a substitute;
* `convert_substituted`: the substitutes are woven into the text of such a tree;
* `convert_of_untouched`: without substitutes its text is copied.
-/

namespace Expression

open Component Node

variable {src : Source} {model : Model}

instance (src : Source) (model : Model) (n : Node) : Decidable (Unreplaced src model n) :=
  decidable_of_iff (n.isJsx = false ∧
      (n.kind = "call_expression" → ∀ hook ∈ Hook.ofCall? src n, hook.kind = .custom) ∧
      (n.kind = "member_expression" → currentRef? src model n = none) ∧
      (isName n = true → referencedCell? model n.span = none))
    ⟨fun h => ⟨h.1, h.2.1, h.2.2.1, h.2.2.2⟩, fun h => ⟨h.markup, h.hook, h.ref, h.name⟩⟩

/-- Nothing in the tree is changed by a conversion, but for names with a substitute: it holds no
call and no other use of a setter, no current value of a ref, no hook of React and no markup. -/
def Untouched (src : Source) (model : Model) (n : Node) : Prop :=
  ∀ c ∈ n.preorder, setterCall? model c = none ∧ Unreplaced src model c

instance (src : Source) (model : Model) (n : Node) : Decidable (Untouched src model n) :=
  inferInstanceAs (Decidable (∀ c ∈ n.preorder, _ ∧ _))

/-- The substitute of a node that is a name. -/
def substitute? (src : Source) (subs : Substitution) (n : Node) : Option String :=
  if isName n then (subs.lookup (src.text n)).map (entryFor src n) else none

theorem replaceOther_of_unreplaced {n : Node} (h : Unreplaced src model n) (subs : Substitution) :
    replaceOther src model subs n = pure (substitute? src subs n) := by
  unfold replaceOther substitute?
  split
  case isTrue hcall =>
    have hname : isName n = false := by simp [isName, eq_of_beq hcall]
    rw [if_neg (by simp [hname])]
    split
    case h_1 hook hhook =>
      have := h.hook (by simpa using hcall) hook hhook
      rw [if_pos (by simp [this])]
    case h_2 => rfl
  case isFalse =>
    split
    case isTrue hname =>
      unfold replaceName
      rw [h.name hname]
    case isFalse =>
      split
      case isTrue hmember => rw [h.ref (by simpa using hmember)]
      case isFalse => rw [if_neg (by simp [h.markup])]

/-- **Substitution.** A tree in which nothing is converted keeps its source text but for the names
with a substitute. -/
theorem convert_substituted {n : Node} (hplaced : WellPlaced src n)
    (huntouched : Untouched src model n) (subs : Substitution) (isStatement : Bool) :
    convert src model subs isStatement n =
      pure (weave src n.start n.stop (topmost (fun _ => substitute? src subs) n)) := by
  rw [convert]
  refine spliceNode_exact [] _ hplaced rfl fun c hc parent _ => ?_
  obtain ⟨hcall, hother⟩ := huntouched c hc
  rw [hcall]
  exact replaceOther_of_unreplaced hother subs

/-- **Copy.** A tree in which nothing is converted keeps its source text. -/
theorem convert_of_untouched {n : Node} (hplaced : WellPlaced src n)
    (huntouched : Untouched src model n) (isStatement : Bool) :
    convert src model [] isStatement n = pure (src.text n) := by
  have none_topmost : topmost (fun _ => substitute? src []) n = [] :=
    topmost_eq_nil fun l _ => by cases l <;> simp [replacement?, substitute?]
  rw [convert_substituted hplaced huntouched, none_topmost, weave, Source.text]

end Expression

end Sveltify
