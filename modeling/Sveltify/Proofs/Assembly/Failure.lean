import Sveltify.Assembly.Progress
import Sveltify.Proofs.Expression.Splice
import Sveltify.Proofs.Step

namespace Sveltify

/-!
# How steps of the assembly fail

Whether a step fails, and how, never depends on what has been reported before. A step that meets a
construct without counterpart is refused, and what is refused can be caught.

* `Failure.IsConstruct`: a refusal is that of a construct without counterpart;
* `constructive_convert`: a conversion is refused in no other way;
* `Alike x y`: the two steps fail in the same way from any states, if at all. `Steady x`: so does
  `x` with itself;
* `failureOf`, `refusalOf`, `isComplete`: how a steady step fails;
* `Ends f c Q x`: the step ends with a result of which `Q` holds, or it is refused as `f` says, or
  the tree lacks a part, but not if `c`. This passes through sequences of steps;
* `Ends.orElse`: so it does through a step that catches refusals;
* `Leftover`: what a placeholder keeps of a construct.
-/

/-- If the failure is a refusal, then that of a construct without counterpart. -/
def Failure.IsConstruct : Failure → Prop
  | .refused r => r.kind = .unsupported
  | .incomplete => True

namespace Expression

variable {src : Source} {model : Component.Model}

/-- Every failure of the step is that of a construct. -/
def Constructive {σ α : Type} (x : EStateM Failure σ α) : Prop :=
  ∀ ⦃s e t⦄, x s = .error e t → e.IsConstruct

namespace Constructive

theorem pure {σ α : Type} (a : α) : Constructive (Pure.pure a : EStateM Failure σ α) := by
  intro s e t h
  cases h

theorem throw {σ α : Type} {e : Failure} (he : e.IsConstruct) :
    Constructive (throw e : EStateM Failure σ α) := by
  intro s e t h
  cases h
  exact he

/-- Steps in a row fail for constructs only, if each of them does. -/
theorem closed {σ : Type} : StepClosed (fun {α} (x : EStateM Failure σ α) => Constructive x) where
  pure := pure
  bind hx hf := by
    intro s e t h
    rcases bind_error_iff.1 h with h | ⟨a, s₁, h₁, h₂⟩
    · exact hx h
    · exact hf h₁ h₂

end Constructive

/-- A conversion fails for constructs only. -/
theorem constructive_replaceOther (subs : Substitution) (n : Node) :
    Constructive (replaceOther src model subs n) := by
  unfold replaceOther
  split
  · split
    · split
      · exact .pure _
      · exact .throw rfl
    · exact .pure _
  · split
    · unfold replaceName
      split
      · exact Constructive.closed.bind (fun s e t h => by cases h) fun _ => .pure _
      · exact .pure _
    · split
      · exact .pure _
      · split
        · exact .throw rfl
        · exact .pure _

/-- A conversion is refused for constructs without counterpart only. -/
theorem constructive_convert (subs : Substitution) (isStatement : Bool) (n : Node) :
    Constructive (convert src model subs isStatement n) := by
  rw [convert]
  refine spliceNode_of (V := fun _ _ => True) Constructive.closed ?_ (fun _ _ _ _ => trivial) _
    trivial
  intro parent c hc _
  cases setterCall? model c with
  | none => exact constructive_replaceOther subs c
  | some cell =>
    dsimp only
    generalize harg : (Hook.argumentsOf c).head? = first
    cases first with
    | none => exact .pure _
    | some argument =>
      dsimp only
      generalize hv : newValue? src cell.name subs argument = value
      cases value with
      | none => exact .throw trivial
      | some v =>
        -- The value is smaller than the call, so the conversion may start over on it.
        exact Constructive.closed.bind (constructive_convert _ _ v.node) fun _ => .pure _
termination_by n.size
decreasing_by
  have := size_newValue src hv
  have := size_argumentsOf harg
  omega

end Expression

namespace Assembly

open Component Expression Svelte

variable {α β γ : Type}

/-! ### Steps that fail alike -/

/-- Two ways to end are alike: both well, or both with the same failure, that of a construct. -/
def EndAlike : EStateM.Result Failure Progress α → EStateM.Result Failure Progress β → Prop
  | .ok _ _, .ok _ _ => True
  | .error e _, .error e' _ => e = e' ∧ e.IsConstruct
  | _, _ => False

/-- Two steps fail in the same way, if at all, whatever states they start from. -/
def Alike (x : Assembling α) (y : Assembling β) : Prop := ∀ p q, EndAlike (x p) (y q)

/-- Whether a step fails, and how, does not depend on the state. -/
abbrev Steady (x : Assembling α) : Prop := Alike x x

namespace Alike

theorem pure (a : α) (b : β) : Alike (Pure.pure a) (Pure.pure b) := fun _ _ => trivial

theorem modify (f g : Progress → Progress) :
    Alike (modify f : Assembling PUnit) (modify g : Assembling PUnit) := fun _ _ => trivial

theorem throw {e : Failure} (he : e.IsConstruct) :
    Alike (throw e : Assembling α) (throw e : Assembling β) := fun _ _ => ⟨rfl, he⟩

theorem bind {δ : Type} {x : Assembling α} {y : Assembling β} {f : α → Assembling γ}
    {g : β → Assembling δ} (hxy : Alike x y) (hfg : ∀ a b, Alike (f a) (g b)) :
    Alike (x >>= f) (y >>= g) := by
  intro p q
  have h := hxy p q
  show EndAlike (EStateM.bind x f p) (EStateM.bind y g q)
  unfold EStateM.bind
  -- The first steps end both well or both with one failure; `h` rules out the mixed cases.
  cases hx : x p with
  | ok a p₁ =>
    cases hy : y q with
    | ok b q₁ => exact hfg a b p₁ q₁
    | error e q₁ =>
      rw [hx, hy] at h
      exact h.elim
  | error e p₁ =>
    cases hy : y q with
    | ok b q₁ =>
      rw [hx, hy] at h
      exact h.elim
    | error e' q₁ =>
      rw [hx, hy] at h
      exact h

end Alike

/-! ### The failure of a step -/

/-- How a step fails, if it does, starting from nothing. -/
def failureOf (x : Assembling α) : Option Failure :=
  match x {} with
  | .ok _ _ => none
  | .error e _ => some e

/-- The construct for which a step is refused, if it is. -/
def refusalOf (x : Assembling α) : Option Refusal :=
  match failureOf x with
  | some (.refused r) => some r
  | _ => none

/-- Does the tree have all the parts that a step needs? -/
def isComplete (x : Assembling α) : Bool := failureOf x != some .incomplete

/-- A run that ends well shows that the step cannot fail. -/
theorem Alike.failureOf_ok {x : Assembling α} (h : Steady x) {p q : Progress} {a : α}
    (hrun : x p = .ok a q) : failureOf x = none := by
  have hp := h p {}
  rw [hrun] at hp
  unfold failureOf
  cases hx : x {} with
  | ok b q' => rfl
  | error e q' =>
    rw [hx] at hp
    exact hp.elim

/-- A run that fails shows how the step always fails. -/
theorem Alike.failureOf_error {x : Assembling α} (h : Steady x) {p q : Progress} {e : Failure}
    (hrun : x p = .error e q) : failureOf x = some e ∧ e.IsConstruct := by
  have hp := h p {}
  rw [hrun] at hp
  unfold failureOf
  cases hx : x {} with
  | ok b q' =>
    rw [hx] at hp
    exact hp.elim
  | error e' q' =>
    rw [hx] at hp
    exact ⟨congrArg some hp.1.symm, hp.2⟩

/-- A step ends well with a result of which `Q` holds, unless it is refused or the tree lacks a
part. It is refused just as `f` says, and for a construct; and if `c` then the tree lacks no part
that the step needs. -/
def Ends (f : Option Refusal) (c : Bool) (Q : α → Prop) (x : Assembling α) : Prop :=
  ∀ p, match x p with
    | .ok a _ => f = none ∧ Q a
    | .error (.refused r) _ => f = some r ∧ r.kind = .unsupported
    | .error .incomplete _ => c = false

/-- A steady step ends in one way. -/
theorem Alike.ends {Q : α → Prop} {x : Assembling α} (h : Steady x) (hQ : Yields Q x) :
    Ends (refusalOf x) (isComplete x) Q x := by
  intro p
  cases hx : x p with
  | ok a q => exact ⟨by simp [refusalOf, h.failureOf_ok hx], hQ hx⟩
  | error e q =>
    obtain ⟨hf, he⟩ := h.failureOf_error hx
    cases e with
    | refused r => exact ⟨by simp [refusalOf, hf], he⟩
    | incomplete =>
      show isComplete x = false
      simp [isComplete, hf]

/-- A steady step whose result does not matter. -/
theorem Alike.endsAnyhow {x : Assembling α} (h : Steady x) :
    Ends (refusalOf x) (isComplete x) (fun _ => True) x :=
  h.ends fun _ _ _ _ => trivial

namespace Ends

variable {f g : Option Refusal} {c d : Bool} {Q : α → Prop} {x : Assembling α} {p q : Progress}

/-- A step that ends well is not refused. -/
theorem ok (h : Ends f c Q x) {a : α} (hrun : x p = .ok a q) : f = none ∧ Q a := by
  have := h p
  rwa [hrun] at this

/-- A step that is refused is refused for one reason. -/
theorem refused (h : Ends f c Q x) {r : Refusal} (hrun : x p = .error (.refused r) q) :
    f = some r ∧ r.kind = .unsupported := by
  have := h p
  rwa [hrun] at this

/-- A step that misses a part is not complete. -/
theorem incomplete (h : Ends f c Q x) (hrun : x p = .error .incomplete q) : c = false := by
  have := h p
  rwa [hrun] at this

/-- A step that is not refused and lacks nothing ends well. -/
theorem exists_ok (h : Ends none true Q x) (p : Progress) : ∃ a q, x p = .ok a q ∧ Q a := by
  cases hrun : x p with
  | ok a q => exact ⟨a, q, rfl, (h.ok hrun).2⟩
  | error e q =>
    cases e with
    | refused r => cases (h.refused hrun).1
    | incomplete => cases h.incomplete hrun

/-- A weaker property of the result. -/
theorem mono {R : α → Prop} (h : Ends f c Q x) (hdc : d = true → c = true)
    (hQR : ∀ a, Q a → R a) : Ends f d R x := by
  intro p
  cases hrun : x p with
  | ok a q => exact (h.ok hrun).imp_right (hQR a)
  | error e q =>
    cases e with
    | refused r => exact h.refused hrun
    | incomplete =>
      have hc := h.incomplete hrun
      show d = false
      cases d with
      | false => rfl
      | true => rw [hdc rfl] at hc; cases hc

theorem pure {a : α} (h : Q a) : Ends none true Q (Pure.pure a : Assembling α) :=
  fun _ => ⟨rfl, h⟩

theorem modify (f : Progress → Progress) :
    Ends none true (fun _ => True) (modify f : Assembling PUnit) := fun _ => ⟨rfl, trivial⟩

theorem get : Ends none true (fun _ => True) (get : Assembling Progress) :=
  fun _ => ⟨rfl, trivial⟩

/-- A part that is needed may be missing. -/
theorem need (o : Option α) : Ends none o.isSome (fun a => o = some a) (need o : Assembling α) := by
  intro p
  cases o with
  | none => rfl
  | some a => exact ⟨rfl, rfl⟩

/-- Of two steps in a row, the first one that is refused counts. -/
theorem bind {R : β → Prop} {k : α → Assembling β} (hx : Ends f c Q x)
    (hk : ∀ a, Q a → Ends g d R (k a)) : Ends (f.or g) (c && d) R (x >>= k) := by
  intro p
  cases hrun : (x >>= k) p with
  | ok b q =>
    obtain ⟨a, p₁, h₁, h₂⟩ := bind_ok_iff.1 hrun
    obtain ⟨rfl, ha⟩ := hx.ok h₁
    exact (hk a ha).ok h₂
  | error e q =>
    cases e with
    | incomplete =>
      show (c && d) = false
      rcases bind_error_iff.1 hrun with h | ⟨a, p₁, h₁, h₂⟩
      · rw [hx.incomplete h, Bool.false_and]
      · rw [(hk a (hx.ok h₁).2).incomplete h₂, Bool.and_false]
    | refused r =>
      rcases bind_error_iff.1 hrun with h | ⟨a, p₁, h₁, h₂⟩
      · obtain ⟨rfl, hr⟩ := hx.refused h
        exact ⟨rfl, hr⟩
      · obtain ⟨rfl, ha⟩ := hx.ok h₁
        exact (hk a ha).refused h₂

/-- A step after one that is never refused. -/
theorem andThen {R : β → Prop} {k : α → Assembling β} (hx : Ends none c Q x)
    (hk : ∀ a, Q a → Ends g d R (k a)) : Ends g (c && d) R (x >>= k) := by
  have := bind hx hk
  rwa [Option.none_or] at this

/-- A step after one that never fails. -/
theorem thereafter {R : β → Prop} {k : α → Assembling β} (hx : Ends none true Q x)
    (hk : ∀ a, Q a → Ends g d R (k a)) : Ends g d R (x >>= k) := by
  have := andThen hx hk
  rwa [Bool.true_and] at this

/-- A step before one that is never refused. -/
theorem before {R : β → Prop} {k : α → Assembling β} (hx : Ends f c Q x)
    (hk : ∀ a, Q a → Ends none d R (k a)) : Ends f (c && d) R (x >>= k) := by
  have := bind hx hk
  rwa [Option.or_none] at this

/-- Only the result is changed after a step. -/
theorem map {R : β → Prop} {k : α → β} (hx : Ends f c Q x) (hk : ∀ a, Q a → R (k a)) :
    Ends f c R (x >>= fun a => Pure.pure (k a)) := by
  have := before hx fun a ha => pure (hk a ha)
  rwa [Bool.and_true] at this

/-- A step for each entry of a list. -/
theorem mapM {Q : γ → α → Prop} {h : γ → Option Refusal} {c : γ → Bool} {k : γ → Assembling α}
    {l : List γ} (hk : ∀ b ∈ l, Ends (h b) (c b) (Q b) (k b)) :
    Ends (l.findSome? h) (l.all c) (List.Forall₂ Q l) (l.mapM k) := by
  induction l with
  | nil => exact pure .nil
  | cons b l ih =>
    have first : (b :: l).findSome? h = (h b).or (l.findSome? h) := by
      cases hb : h b <;> simp [hb]
    rw [List.mapM_cons, first, List.all_cons]
    refine bind (hk b (by simp)) fun a ha => ?_
    exact (ih fun b' hb' => hk b' (by simp [hb'])).map fun as has => .cons ha has

/-- A step for each entry of a list, none of which is refused. -/
theorem mapM_none {Q : γ → α → Prop} {c : γ → Bool} {k : γ → Assembling α} {l : List γ}
    (hk : ∀ b ∈ l, Ends none (c b) (Q b) (k b)) :
    Ends none (l.all c) (List.Forall₂ Q l) (l.mapM k) := by
  have := mapM hk
  rwa [List.findSome?_eq_none_iff.2 fun _ _ => rfl] at this

/-- Steps that carry a result along a list. What `I` says of the result and of the entries so far
is kept. -/
theorem foldlM {I : List γ → α → Prop} {c : γ → Bool} {k : α → γ → Assembling α}
    (hk : ∀ done a b, I done a → Ends none (c b) (I (done ++ [b])) (k a b)) (l : List γ)
    {done : List γ} {a : α} (h : I done a) :
    Ends none (l.all c) (I (done ++ l)) (l.foldlM k a) := by
  induction l generalizing done a with
  | nil =>
    rw [List.append_nil]
    exact pure h
  | cons b l ih =>
    rw [List.foldlM_cons, List.all_cons]
    refine (hk done a b h).andThen fun a' ha' => ?_
    have := ih ha'
    rwa [List.append_assoc] at this

/-! ### Catching refusals -/

section OrElse

variable {handle : Refusal → Assembling α}

theorem orElse_of_ok {a : α} (hx : x p = .ok a q) : Assembly.orElse x handle p = .ok a q := by
  show EStateM.tryCatch x _ p = _
  simp only [EStateM.tryCatch, hx]

/-- A refused construct is handled. -/
theorem orElse_of_refused {r : Refusal} (hx : x p = .error (.refused r) q)
    (hr : r.kind = .unsupported) : Assembly.orElse x handle p = handle r q := by
  have construct : refusedConstruct? (.refused r) = some r := if_pos hr
  show EStateM.tryCatch x _ p = _
  simp only [EStateM.tryCatch, hx, construct]
  rfl

/-- A missing part is not handled. -/
theorem orElse_of_incomplete (hx : x p = .error .incomplete q) :
    Assembly.orElse x handle p = .error .incomplete q := by
  show EStateM.tryCatch x _ p = _
  simp only [EStateM.tryCatch, hx]
  rfl

/-- A step that catches refusals is refused only if it is in dealing with them. Its result comes
from the step, or from dealing with its refusal. -/
theorem orElse {R : α → Prop} (h : Ends f c Q x) (hresult : f = none → ∀ a, Q a → R a)
    (hhandle : ∀ r, f = some r → Ends none true R (handle r)) :
    Ends none c R (Assembly.orElse x handle) := by
  intro p
  cases hx : x p with
  | ok a q =>
    obtain ⟨hf, ha⟩ := h.ok hx
    rw [orElse_of_ok hx]
    exact ⟨rfl, hresult hf a ha⟩
  | error e q =>
    cases e with
    | refused r =>
      obtain ⟨hf, hr⟩ := h.refused hx
      rw [orElse_of_refused hx hr]
      -- The state stays as the refused step left it; `hhandle` holds for any.
      exact (hhandle r hf).mono (fun _ => rfl) (fun _ h => h) q
    | incomplete =>
      rw [orElse_of_incomplete hx]
      exact h.incomplete hx

end OrElse

end Ends

/-- What holds of the results of a step and of those of dealing with its refusal. -/
theorem yields_orElse {Q : α → Prop} {x : Assembling α} {handle : Refusal → Assembling α}
    (hx : Yields Q x) (hhandle : ∀ r, Yields Q (handle r)) : Yields Q (orElse x handle) := by
  intro p a q hrun
  cases hp : x p with
  | ok b p₁ =>
    rw [Ends.orElse_of_ok hp] at hrun
    cases hrun
    exact hx hp
  | error e p₁ =>
    change EStateM.tryCatch x _ p = _ at hrun
    cases hr : refusedConstruct? e with
    | some r =>
      simp only [EStateM.tryCatch, hp, hr] at hrun
      exact hhandle r hrun
    | none =>
      simp only [EStateM.tryCatch, hp, hr] at hrun
      cases hrun

/-! ### Placeholders -/

variable {src : Source} {model : Model}

/-- What a placeholder keeps of a construct. -/
structure Leftover where
  reason : String
  source : String
deriving Repr, DecidableEq

/-- What a placeholder keeps. -/
def leftoverIn (p : Placeholder) : Leftover := { reason := p.reason, source := p.source }

/-- What is kept of a node that is left behind for a reason, after the text `before`. -/
def leftoverOf (src : Source) (n : Node) (before reason : String) : Leftover where
  reason
  source := outdented src (before ++ src.text n) n

/-- What is kept of a node: all of it for a refusal, and else the parts `own`. -/
def leftoversOf (src : Source) (n : Node) (before : String) (refusal : Option Refusal)
    (own : List Leftover) : List Leftover :=
  match refusal with
  | some r => [leftoverOf src n before r.message]
  | none => own

/-- A placeholder can always be left. -/
theorem steady_leave (n : Node) (reason : String) (construct : Option String) (before : String) :
    Steady (leave src n reason construct before) := fun _ _ => trivial

/-- Leaving a construct behind never fails, and keeps its source and the reason. -/
theorem ends_leave (n : Node) (reason : String) (construct : Option String) (before : String) :
    Ends none true (fun p => leftoverIn p = leftoverOf src n before reason)
      (leave src n reason construct before) := fun _ => ⟨rfl, rfl⟩

/-- What is kept in the results for a list, entry by entry. -/
theorem flatMap_eq_of_forall₂ {kept : α → List Leftover} {own : γ → List Leftover} {l : List γ}
    {results : List α} (h : List.Forall₂ (fun c a => kept a = own c) l results) :
    results.flatMap kept = l.flatMap own := by
  induction h with
  | nil => rfl
  | cons hca _ ih => rw [List.flatMap_cons, List.flatMap_cons, hca, ih]

/-- A construct with a placeholder in its place if it is refused. Where `R` tells what a result
keeps, the result keeps what is left of the construct. -/
theorem ends_orElse_leave {R : List Leftover → α → Prop} {f : Option Refusal} {c : Bool}
    {own : List Leftover} {x : Assembling α} {n : Node} {before : String} {put : Placeholder → α}
    (hx : Ends f c (R own) x) (hput : ∀ p, R [leftoverIn p] (put p)) :
    Ends none c (R (leftoversOf src n before f own))
      (orElse x fun r => do return put (← leave src n r.message r.construct before)) := by
  refine hx.orElse ?_ ?_
  · rintro rfl a ha
    exact ha
  · rintro r rfl
    refine (ends_leave n r.message r.construct before).map fun p hp => ?_
    show R [leftoverOf src n before r.message] (put p)
    rw [← hp]
    exact hput p

end Assembly

end Sveltify
