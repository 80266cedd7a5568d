import Sveltify.Proofs.Assembly.Failure
import Sveltify.Proofs.Expression.Written

namespace Sveltify.Assembly

open Component Expression

/-!
# Plain steps

Most steps of the assembly only convert source text. Such a step may remark on what it meets, need
names from the framework and be refused, but it leaves no placeholder.

* `isTodo`: is a report about a construct that is left behind?
* `Paired src x y`: two runs of the same plain steps, whose results may differ;
* `Plain src x`: the step is plain;
* `Plain.steady`: whether a plain step is refused does not depend on the state;
* `Plain.along`: a relation that every single change keeps is kept by the whole step, also if the
  step is refused;
* `textOf?`: the converted text of a node, which does not depend on the state.
-/

variable {src : Source} {model : Model} {α β γ : Type}

/-! ### Conversions as steps -/

/-- How a step ends, and its last state. -/
def outcome : EStateM.Result Failure Progress α → Except Failure α × Progress
  | .ok a p => (.ok a, p)
  | .error e p => (.error e, p)

/-- Remark on a setter used as a value, unless that has been done. -/
def Progress.remark (src : Source) (p : Progress) (use : SetterUse) : Progress :=
  if p.remarked.contains use.node.span then p
  else
    { p with
      reports := p.reports ++ [use.report src]
      remarked := p.remarked ++ [use.node.span] }

/-- **Step.** What a conversion remarks on is reported in its place. -/
theorem after_remark (src : Source) (p : Progress) (memory : Memory) (use : SetterUse) :
    p.after src (memory.remark use) = (p.after src memory).remark src use := by
  by_cases h : use.node.span ∈ memory.remarked
  · simp [Memory.remark, Progress.remark, Progress.after, h]
  · simp [Memory.remark, Progress.remark, Progress.after, h]

/-- **Run.** All that a conversion remarks on is reported in order. -/
theorem after_remarks (src : Source) (p : Progress) (memory : Memory) (uses : List SetterUse) :
    p.after src (uses.foldl Memory.remark memory) =
      uses.foldl (Progress.remark src) (p.after src memory) := by
  induction uses generalizing memory with
  | nil => rfl
  | cons use uses ih => rw [List.foldl_cons, List.foldl_cons, ih, after_remark]

/-- A conversion as a step: it answers as from any memory, and the uses that it meets are remarked
on in order, each unless that has been done. -/
theorem outcome_withRemarks (src : Source) {c : Conversion α} {uses : List SetterUse}
    {r : Except Failure α} (h : Adds c uses r) (p : Progress) :
    outcome (withRemarks src c p) = (r, uses.foldl (Progress.remark src) p) := by
  have start : p.after src { remarked := p.remarked } = p := by simp [Progress.after]
  have last := after_remarks src p { remarked := p.remarked } uses
  rw [start] at last
  unfold withRemarks
  rw [h]
  cases r with
  | ok a => exact congrArg (Prod.mk (Except.ok a)) last
  | error e => exact congrArg (Prod.mk (Except.error e)) last

/-! ### Plain steps -/

/-- Is the report about a construct that is left as a placeholder? -/
def isTodo (r : Report) : Bool := r.stage == .lower && r.code == Code.unsupportedPattern

/-- Two runs of the same plain steps. Where a step follows on the result of another, it has to be
the same for all results. -/
inductive Paired (src : Source) : ∀ {α : Type}, Assembling α → Assembling α → Prop
  | pure {α : Type} (a b : α) : Paired src (Pure.pure a) (Pure.pure b)
  | bind {α β : Type} {x y : Assembling α} {f g : α → Assembling β} (hxy : Paired src x y)
      (hfg : ∀ a b, Paired src (f a) (g b)) : Paired src (x >>= f) (y >>= g)
  | throw {α : Type} {e : Failure} (he : e.IsConstruct) :
      Paired src (throw e : Assembling α) (throw e)
  | withRemarks {α : Type} {c : Conversion α} (hc : Constructive c) (hforgets : Forgetful c) :
      Paired src (withRemarks src c) (withRemarks src c)
  | useImports (names : List String) : Paired src (useImports names) (useImports names)
  | report {r : Report} (hr : isTodo r = false) : Paired src (report r) (report r)

/-- The step converts source text, and leaves nothing behind. -/
abbrev Plain (src : Source) (x : Assembling α) : Prop := Paired src x x

namespace Paired

/-- A part that is needed is there for both, or for neither. -/
theorem need {f g : γ → Assembling α} {o : Option γ}
    (h : ∀ c, o = some c → Paired src (f c) (g c)) :
    Paired src (Sveltify.need o >>= f) (Sveltify.need o >>= g) := by
  cases o with
  | none => exact throw (e := .incomplete) trivial
  | some c => exact h c rfl

/-- Steps that are paired one by one are paired in a row. -/
theorem mapM {l : List γ} {f g : γ → Assembling α} (h : ∀ c ∈ l, Paired src (f c) (g c)) :
    Paired src (l.mapM f) (l.mapM g) := by
  induction l with
  | nil => exact pure _ _
  | cons c l ih =>
    rw [List.mapM_cons, List.mapM_cons]
    refine bind (h c (by simp)) fun a b => ?_
    exact bind (ih fun d hd => h d (by simp [hd])) fun as bs => pure _ _

/-! ### How plain steps fail -/

/-- Paired steps end alike. -/
theorem alike {x y : Assembling α} (h : Paired src x y) : Alike x y := by
  induction h with
  | pure a b => exact .pure a b
  | bind _ _ ihxy ihfg => exact .bind ihxy ihfg
  | throw he => exact .throw he
  | @withRemarks α c hc hforgets =>
    obtain ⟨uses, r, hadds⟩ := hforgets
    intro p q
    have hp := outcome_withRemarks src hadds p
    have hq := outcome_withRemarks src hadds q
    generalize Assembly.withRemarks src c p = x at hp
    generalize Assembly.withRemarks src c q = y at hq
    -- Both runs end with `r`.
    cases x <;> cases y <;> cases hp <;> cases hq
    · trivial
    · exact ⟨rfl, hc (hadds {})⟩
  | useImports names => exact .modify _ _
  | report hr => exact .modify _ _

end Paired

/-- A plain step ends alike, whatever went before. -/
theorem Plain.steady {x : Assembling α} (h : Plain src x) : Steady x := h.alike

/-! ### What plain steps change -/

/-- However the step ends, `R` holds between its first and its last state. -/
structure Along (R : Progress → Progress → Prop) (x : Assembling α) : Prop where
  ok : ∀ ⦃p a q⦄, x p = .ok a q → R p q
  error : ∀ ⦃p e q⦄, x p = .error e q → R p q

/-- The relation holds along each change that a plain step is made of. -/
structure Absorbs (src : Source) (R : Progress → Progress → Prop) : Prop where
  refl : ∀ p, R p p
  trans : ∀ {p q r}, R p q → R q r → R p r
  remark : ∀ p use, R p (p.remark src use)
  useImports : ∀ p names, R p { p with svelteImports := p.svelteImports ++ names }
  report : ∀ p r, isTodo r = false → R p { p with reports := p.reports ++ [r] }

namespace Absorbs

variable {R : Progress → Progress → Prop}

/-- Any number of remarks is absorbed. -/
theorem remarks (h : Absorbs src R) (uses : List SetterUse) (p : Progress) :
    R p (uses.foldl (Progress.remark src) p) := by
  induction uses generalizing p with
  | nil => exact h.refl p
  | cons use uses ih => exact h.trans (h.remark p use) (ih _)

/-- Two steps along a relation, one after the other. -/
theorem along_bind (h : Absorbs src R) {x : Assembling α} {f : α → Assembling β} (hx : Along R x)
    (hf : ∀ a, Along R (f a)) : Along R (x >>= f) where
  ok := by
    intro p b q hrun
    obtain ⟨a, p₁, h₁, h₂⟩ := bind_ok_iff.1 hrun
    exact h.trans (hx.ok h₁) ((hf a).ok h₂)
  error := by
    intro p e q hrun
    rcases bind_error_iff.1 hrun with h₁ | ⟨a, p₁, h₁, h₂⟩
    · exact hx.error h₁
    · exact h.trans (hx.ok h₁) ((hf a).error h₂)

/-- A change along the relation. -/
theorem along_modify {f : Progress → Progress} (hf : ∀ p, R p (f p)) :
    Along R (modify f : Assembling PUnit) where
  ok := by
    intro p u q hrun
    cases hrun
    exact hf p
  error := by
    intro p e q hrun
    cases hrun

/-- A conversion that forgets its memory only adds remarks. -/
theorem along_withRemarks (h : Absorbs src R) {c : Conversion α} (hforgets : Forgetful c) :
    Along R (withRemarks src c) := by
  obtain ⟨uses, r, hadds⟩ := hforgets
  refine ⟨fun p a q hrun => ?_, fun p e q hrun => ?_⟩
  all_goals
    have last := outcome_withRemarks src hadds p
    rw [hrun] at last
    obtain rfl : q = _ := congrArg Prod.snd last
    exact h.remarks uses p

/-- Paired steps go along every relation that absorbs them. -/
theorem along_of_paired (h : Absorbs src R) {x y : Assembling α} (hxy : Paired src x y) :
    Along R x ∧ Along R y := by
  induction hxy with
  | pure a b =>
    refine ⟨⟨?_, ?_⟩, ⟨?_, ?_⟩⟩ <;> intro p c q hrun <;> cases hrun <;> exact h.refl p
  | bind _ _ ihxy ihfg =>
    exact ⟨h.along_bind ihxy.1 fun a => (ihfg a a).1, h.along_bind ihxy.2 fun a => (ihfg a a).2⟩
  | throw he =>
    refine ⟨⟨?_, ?_⟩, ⟨?_, ?_⟩⟩ <;> intro p c q hrun <;> cases hrun <;> exact h.refl p
  | withRemarks hc hforgets =>
    exact ⟨h.along_withRemarks hforgets, h.along_withRemarks hforgets⟩
  | useImports names =>
    have := along_modify fun p => h.useImports p names
    exact ⟨this, this⟩
  | @report r hr =>
    have := along_modify fun p => h.report p r hr
    exact ⟨this, this⟩

end Absorbs

/-- So do plain steps. -/
theorem Plain.along {R : Progress → Progress → Prop} {x : Assembling α} (hx : Plain src x)
    (h : Absorbs src R) : Along R x :=
  (h.along_of_paired hx).1

/-! ### Conversions -/

/-- Converting a node is plain. -/
theorem plain_converted (n : Node) : Plain src (converted src model n) :=
  .withRemarks (constructive_convert _ _ n) (forgetful_convert src model _ _ n)

/-- So is converting it to text. -/
theorem plain_convertedText (isStatement : Bool) (n : Node) :
    Plain src (convertedText src model isStatement n) := by
  have lines : Constructive (convertLines src model isStatement n) :=
    Constructive.closed.bind (constructive_convert _ _ n) fun _ => .pure _
  exact .bind (.withRemarks lines (forgetful_convertLines src model isStatement n))
    fun _ _ => .pure _ _

/-- Converting an expression to text is plain. -/
theorem plain_expressionText (n : Node) : Plain src (expressionText src model n) :=
  plain_converted n.withoutParens

/-- So it is if there may be no expression. -/
theorem plain_expressionText? (n : Option Node) : Plain src (expressionText? src model n) :=
  .need fun c _ => plain_expressionText c

/-! ### Converted text -/

/-- What a conversion yields. -/
def resultOf? (c : Conversion α) : Option α :=
  match c {} with
  | .ok a _ => some a
  | .error _ _ => none

/-- The result does not hang on what was remarked before. -/
theorem yields_withRemarks {c : Conversion α} (hforgets : Forgetful c) :
    Yields (fun a => resultOf? c = some a) (withRemarks src c) := by
  obtain ⟨uses, r, hadds⟩ := hforgets
  intro p a q hrun
  have answer := outcome_withRemarks src hadds p
  rw [hrun] at answer
  obtain rfl : .ok a = r := congrArg Prod.fst answer
  rw [resultOf?, hadds {}]

/-- The converted text of a node, moved to the left margin; none if the node is refused. -/
def textOf? (src : Source) (model : Model) (isStatement : Bool) (n : Node) : Option String :=
  (resultOf? (convertLines src model isStatement n)).map Text.unlines

/-- Nor does converted text. -/
theorem yields_convertedText (isStatement : Bool) (n : Node) :
    Yields (fun t => textOf? src model isStatement n = some t)
      (convertedText src model isStatement n) := by
  refine (yields_withRemarks (forgetful_convertLines src model isStatement n)).andThen
    fun lines hlines => .pure ?_
  rw [textOf?, hlines, Option.map_some]

end Sveltify.Assembly
