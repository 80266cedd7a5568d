import Mathlib.Data.List.Forall2
import Sveltify.Proofs.Assembly.Plain

namespace Sveltify.Assembly

open Component Expression

/-!
# What is remembered from one conversion to the next

The parts of a component are converted one after another, and the same text may be converted more
than once. What is remembered in between are the setters used as values that have been remarked on.
A conversion looks into this memory and adds to it wherever it meets a setter, in the middle of the
text; but this has an influence on the remarks only.

* `Request`, `serve`: conversions that are asked for one after another. One that fails does not keep
  the others from being made;
* `Serves`: the answer to a request by the rules, and the setters that are replaced for it;
* `IsFirsts`: of several uses of setters, the first at each place;
* `requests_independent`: every request is answered as if it were the only one, and there is one
  remark for each place at which a setter was replaced.
-/

variable (src : Source) (model : Model)

/-! ### Requests -/

/-- A conversion that is asked for: the text of a node with substitutes for names, or its lines
moved to the left margin. -/
inductive Request where
  | text (n : Node) (subs : Substitution) (isStatement : Bool)
  | lines (n : Node) (isStatement : Bool)

/-- The answer to a request. -/
inductive Answer where
  | text (t : String)
  | lines (ls : List String)
deriving Repr, DecidableEq

/-- The step that a request asks for. -/
def Request.step : Request → Assembling Answer
  | .text n subs isStatement =>
    return .text (← withRemarks src (Expression.convert src model subs isStatement n))
  | .lines n isStatement =>
    return .lines (← withRemarks src (convertLines src model isStatement n))

/-- Requests that are answered one after another, with the last state. -/
def serve : List Request → Progress → List (Except Failure Answer) × Progress
  | [], p => ([], p)
  | request :: rest, p =>
    let first := outcome (request.step src model p)
    let others := serve rest first.2
    (first.1 :: others.1, others.2)

/-- The setters used as values that are replaced for a request, in order, and its answer. -/
inductive Serves : Request → List SetterUse × Except Failure Answer → Prop
  | text {n : Node} {subs : Substitution} {isStatement : Bool} {uses : List SetterUse}
      {r : Except Failure String} (h : Writes src model subs isStatement (.node none n) uses r) :
      Serves (.text n subs isStatement) (uses, r.map .text)
  | lines {n : Node} {isStatement : Bool} {uses : List SetterUse} {r : Except Failure String}
      (h : Writes src model [] isStatement (.node none n) uses r) :
      Serves (.lines n isStatement) (uses, r.map fun t => .lines (outdent src t n))

/-- Every request is answered by the rules. -/
theorem exists_serves (request : Request) : ∃ served, Serves src model request served := by
  cases request with
  | text n subs isStatement =>
    obtain ⟨uses, r, h⟩ := exists_writes src model subs isStatement none n
    exact ⟨_, .text h⟩
  | lines n isStatement =>
    obtain ⟨uses, r, h⟩ := exists_writes src model [] isStatement none n
    exact ⟨_, .lines h⟩

/-- Every list of requests is answered by the rules. -/
theorem exists_forall_serves (requests : List Request) :
    ∃ served, List.Forall₂ (Serves src model) requests served := by
  induction requests with
  | nil => exact ⟨[], .nil⟩
  | cons request rest ih =>
    obtain ⟨served, h⟩ := ih
    obtain ⟨first, hfirst⟩ := exists_serves src model request
    exact ⟨first :: served, .cons hfirst h⟩

variable {src model}

/-- Only references to setters are replaced. -/
theorem Serves.referenced {request : Request} {served : List SetterUse × Except Failure Answer}
    (h : Serves src model request served) {u : SetterUse} (hu : u ∈ served.1) :
    referencedCell? model u.node.span = some u.cell := by
  cases h with
  | text h => exact h.referenced hu
  | lines h => exact h.referenced hu

/-! ### Serving requests -/

/-- A step and a function of its result. -/
theorem outcome_map {α β : Type} (x : Assembling α) (f : α → β) (p : Progress) :
    outcome ((do return f (← x) : Assembling β) p) =
      ((outcome (x p)).1.map f, (outcome (x p)).2) := by
  show outcome (EStateM.bind x _ p) = _
  unfold EStateM.bind
  cases x p <;> rfl

/-- A single request is answered by the rules, whatever was remembered. -/
theorem Serves.outcome_step {request : Request} {served : List SetterUse × Except Failure Answer}
    (h : Serves src model request served) (p : Progress) :
    outcome (request.step src model p) = (served.2, served.1.foldl (Progress.remark src) p) := by
  cases h with
  | text h => rw [Request.step, outcome_map, outcome_withRemarks src (convert_of_writes h)]
  | @lines _ _ _ r h =>
    rw [Request.step, outcome_map, outcome_withRemarks src (convertLines_of_writes h)]
    cases r <;> rfl

/-- Requests are answered one by one, and what is replaced for them is remarked on in order. -/
theorem serve_of_serves {requests : List Request}
    {served : List (List SetterUse × Except Failure Answer)}
    (h : List.Forall₂ (Serves src model) requests served) (p : Progress) :
    serve src model requests p =
      (served.map Prod.snd, (served.flatMap Prod.fst).foldl (Progress.remark src) p) := by
  induction h generalizing p with
  | nil => rfl
  | cons hfirst _ ih =>
    rw [serve, hfirst.outcome_step p]
    dsimp only
    rw [ih, List.map_cons, List.flatMap_cons, List.foldl_append]

/-! ### The first use at each place -/

/-- Of these uses of setters, the first at each place: no use of the same span stands in front of
it, every span is among them, and they have the order in which the spans occur first. -/
structure IsFirsts (all firsts : List SetterUse) : Prop where
  isFirst : ∀ u ∈ firsts, all.find? (fun v => v.node.span == u.node.span) = some u
  covers : ∀ u ∈ all, ∃ v ∈ firsts, v.node.span = u.node.span
  order : firsts.Pairwise fun u v =>
    (all.map (·.node.span)).idxOf u.node.span < (all.map (·.node.span)).idxOf v.node.span

/-- The first use at each place. -/
def firstUses : List SetterUse → List SetterUse
  | [] => []
  | u :: rest => u :: (firstUses rest).filter fun v => v.node.span != u.node.span

theorem isFirsts_firstUses (all : List SetterUse) : IsFirsts all (firstUses all) := by
  induction all with
  | nil => exact ⟨by simp [firstUses], by simp, .nil⟩
  | cons u rest ih =>
    have other {v : SetterUse}
        (hv : v ∈ (firstUses rest).filter fun v => v.node.span != u.node.span) :
        v ∈ firstUses rest ∧ v.node.span ≠ u.node.span := by
      simpa using hv
    refine ⟨?_, ?_, List.pairwise_cons.2 ⟨?_, ?_⟩⟩
    · intro v hv
      rcases List.mem_cons.1 hv with rfl | hv
      · exact List.find?_cons_of_pos (by simp)
      · rw [List.find?_cons_of_neg (by simpa using (other hv).2.symm)]
        exact ih.isFirst v (other hv).1
    · intro v hv
      by_cases hspan : v.node.span = u.node.span
      · exact ⟨u, List.mem_cons_self, hspan.symm⟩
      · rcases List.mem_cons.1 hv with rfl | hv
        · exact absurd rfl hspan
        · obtain ⟨w, hw, hwv⟩ := ih.covers v hv
          refine ⟨w, List.mem_cons_of_mem _ ?_, hwv⟩
          simpa [hwv] using ⟨hw, hspan⟩
    · intro v hv
      rw [List.map_cons, List.idxOf_cons_self, List.idxOf_cons_ne _ (other hv).2.symm]
      exact Nat.succ_pos _
    · -- The places are counted from one use further back.
      refine (ih.order.filter _).imp_of_mem fun {v w} hv hw h => ?_
      rw [List.map_cons, List.idxOf_cons_ne _ (other hv).2.symm,
        List.idxOf_cons_ne _ (other hw).2.symm]
      exact Nat.succ_lt_succ h

/-- Remarks are made on the first use at each place that has not been remarked on. -/
theorem foldl_remark (uses : List SetterUse) (p : Progress) :
    (uses.foldl (Progress.remark src) p).reports =
      p.reports ++ ((firstUses uses).filter fun u => !p.remarked.contains u.node.span).map
        (SetterUse.report src) := by
  induction uses generalizing p with
  | nil => simp [firstUses]
  | cons u rest ih =>
    rw [List.foldl_cons, ih, firstUses, Progress.remark]
    by_cases hu : u.node.span ∈ p.remarked
    · -- The use is passed over, and so are the later ones of its span.
      rw [if_pos (by simpa using hu), List.filter_cons_of_neg (by simpa using hu),
        List.filter_filter]
      congr 2
      refine List.filter_congr fun v _ => ?_
      by_cases hspan : v.node.span = u.node.span
      · simp [hspan, hu]
      · simp [hspan]
    · rw [if_neg (by simpa using hu), List.filter_cons_of_pos (by simpa using hu),
        List.filter_filter]
      dsimp only
      rw [List.append_assoc, List.map_cons, List.singleton_append]
      congr 3
      refine List.filter_congr fun v _ => ?_
      by_cases hspan : v.node.span = u.node.span
      · simp [hspan]
      · simp [hspan]

/-- **Memory.** Let requests be answered one after another, each from the memory that those before it
have left. Whatever was remembered at first, each answer is the one that the request has if it is
the only one and nothing is remembered. Without memory at first, the answers are those by the rules,
and the remarks that are added are those on the first use at each place where a reference to a
setter was replaced for some request, failed or not, in the order in which these were replaced
first. -/
theorem requests_independent (src : Source) (model : Model) (requests : List Request)
    (reports : List Report) :
    (∀ p, (serve src model requests p).1 =
        requests.flatMap (fun request => (serve src model [request] {}).1)) ∧
      ∃ served, List.Forall₂ (Serves src model) requests served ∧
        (serve src model requests { reports }).1 = served.map Prod.snd ∧
        (∀ u ∈ served.flatMap Prod.fst, referencedCell? model u.node.span = some u.cell) ∧
        ∃ firsts, IsFirsts (served.flatMap Prod.fst) firsts ∧
          (serve src model requests { reports }).2.reports =
            reports ++ firsts.map (SetterUse.report src) := by
  obtain ⟨served, hserved⟩ := exists_forall_serves src model requests
  have alone : requests.flatMap (fun request => (serve src model [request] {}).1) =
      served.map Prod.snd := by
    induction hserved with
    | nil => rfl
    | cons hfirst _ ih =>
      rw [List.flatMap_cons, serve_of_serves (.cons hfirst .nil), ih]
      rfl
  have together := serve_of_serves hserved
  refine ⟨fun p => by rw [together, alone], served, hserved, by rw [together], fun u hu => ?_, _,
    isFirsts_firstUses _, ?_⟩
  · obtain ⟨s, hs, hu⟩ := List.mem_flatMap.1 hu
    obtain ⟨request, -, hrequest⟩ := (exists_of_forall₂ hserved).2 s hs
    exact hrequest.referenced hu
  · rw [together, foldl_remark]
    simp

end Sveltify.Assembly
