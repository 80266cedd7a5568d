import Mathlib.Data.List.Forall2
import Mathlib.Logic.Relation
import Sveltify.Refusal

namespace Sveltify

/-!
# Steps with a state

The stages are written as steps that change a state and may fail. Proofs take them apart here, so
that no proof about a stage opens the monad.

* `bind_ok_iff`, `bind_error_iff`: how two steps in a row end;
* `lift_ok_iff`, `need_ok_iff`: steps that leave the state alone; `except_bind_ok_iff`: computations
  without a state;
* `Leads R x`: whenever `x` ends well, `R` holds between its first and its last state. For a
  relation that is reflexive and transitive this passes through every way to combine steps;
* `Yields Q x`: whenever `x` ends well, `Q` holds of its result;
* `StepClosed P`: the property `P` of steps passes through sequences of steps.
-/

variable {ε σ α β : Type}

/-! ### How steps end -/

/-- Two steps in a row end well just if both do. -/
theorem bind_ok_iff {x : EStateM ε σ α} {f : α → EStateM ε σ β} {s t : σ} {b : β} :
    (x >>= f) s = .ok b t ↔ ∃ a s₁, x s = .ok a s₁ ∧ f a s₁ = .ok b t := by
  show EStateM.bind x f s = _ ↔ _
  unfold EStateM.bind
  cases x s with
  | ok a s₁ =>
    constructor
    · intro h
      exact ⟨a, s₁, rfl, h⟩
    · rintro ⟨a', s', h, h'⟩
      cases h
      exact h'
  | error e s₁ => simp

/-- Two steps in a row fail if the first fails, or if it ends well and the second fails. -/
theorem bind_error_iff {x : EStateM ε σ α} {f : α → EStateM ε σ β} {s t : σ} {e : ε} :
    (x >>= f) s = .error e t ↔
      x s = .error e t ∨ ∃ a s₁, x s = .ok a s₁ ∧ f a s₁ = .error e t := by
  show EStateM.bind x f s = _ ↔ _
  unfold EStateM.bind
  cases x s with
  | ok a s₁ =>
    constructor
    · intro h
      exact .inr ⟨a, s₁, rfl, h⟩
    · rintro (h | ⟨a', s', h, h'⟩)
      · cases h
      · cases h
        exact h'
  | error e' s₁ => simp

/-- A pure computation leaves the state alone. -/
theorem lift_ok_iff {x : Except Failure α} {s t : σ} {a : α} :
    (liftM x : EStateM Failure σ α) s = .ok a t ↔ x = .ok a ∧ t = s := by
  cases x with
  | ok a' =>
    show EStateM.Result.ok a' s = .ok a t ↔ _
    constructor
    · intro h
      cases h
      exact ⟨rfl, rfl⟩
    · rintro ⟨h, rfl⟩
      cases h
      rfl
  | error e =>
    show EStateM.Result.error e s = .ok a t ↔ _
    simp

/-- What has to be there leaves the state alone. -/
theorem need_ok_iff {x : Option α} {s t : σ} {a : α} :
    (need x : EStateM Failure σ α) s = .ok a t ↔ x = some a ∧ t = s := by
  cases x with
  | some a' =>
    show EStateM.Result.ok a' s = .ok a t ↔ _
    constructor
    · intro h
      cases h
      exact ⟨rfl, rfl⟩
    · rintro ⟨h, rfl⟩
      cases h
      rfl
  | none =>
    show EStateM.Result.error Failure.incomplete s = .ok a t ↔ _
    simp

/-- Two computations in a row yield a result just if both do. -/
theorem except_bind_ok_iff {x : Except ε α} {f : α → Except ε β} {b : β} :
    (x >>= f) = .ok b ↔ ∃ a, x = .ok a ∧ f a = .ok b := by
  cases x with
  | error e =>
    show Except.error e = .ok b ↔ _
    simp
  | ok a =>
    show f a = .ok b ↔ _
    simp

/-- A part that is needed is there. -/
theorem except_need_ok_iff {x : Option α} {a : α} :
    (need x : Except Failure α) = .ok a ↔ x = some a := by
  cases x with
  | none =>
    show Except.error Failure.incomplete = .ok a ↔ _
    simp
  | some a' =>
    show Except.ok a' = .ok a ↔ _
    simp

/-- Of lists that are related entry by entry, each entry has a partner. -/
theorem exists_of_forall₂ {R : α → β → Prop} {as : List α} {bs : List β}
    (h : List.Forall₂ R as bs) :
    (∀ a ∈ as, ∃ b ∈ bs, R a b) ∧ ∀ b ∈ bs, ∃ a ∈ as, R a b := by
  induction h with
  | nil => simp
  | cons hab _ ih =>
    constructor
    · intro a ha
      rcases List.mem_cons.1 ha with rfl | ha
      · exact ⟨_, List.mem_cons_self, hab⟩
      · obtain ⟨b, hb, hR⟩ := ih.1 a ha
        exact ⟨b, List.mem_cons_of_mem _ hb, hR⟩
    · intro b hb
      rcases List.mem_cons.1 hb with rfl | hb
      · exact ⟨_, List.mem_cons_self, hab⟩
      · obtain ⟨a, ha, hR⟩ := ih.2 b hb
        exact ⟨a, List.mem_cons_of_mem _ ha, hR⟩

/-- Steps that agree on the entries of a list. -/
theorem mapM_congr {m : Type → Type} [Monad m] [LawfulMonad m] {as : List α} {f g : α → m β}
    (h : ∀ a ∈ as, f a = g a) : as.mapM f = as.mapM g := by
  induction as with
  | nil => rfl
  | cons a as ih =>
    rw [List.mapM_cons, List.mapM_cons, h a List.mem_cons_self,
      ih fun c hc => h c (List.mem_cons_of_mem _ hc)]

/-- What is computed for the entries of a list, entry by entry. -/
theorem forall₂_of_except_mapM {f : α → Except ε β} {as : List α} {bs : List β}
    (h : as.mapM f = .ok bs) : List.Forall₂ (fun a b => f a = .ok b) as bs := by
  induction as generalizing bs with
  | nil =>
    cases h
    exact .nil
  | cons a as ih =>
    rw [List.mapM_cons] at h
    obtain ⟨b, hb, hrest⟩ := except_bind_ok_iff.1 h
    obtain ⟨bs', hbs, hpure⟩ := except_bind_ok_iff.1 hrest
    cases hpure
    exact .cons hb (ih hbs)

/-- What is computed for the entries of a list comes from one of them. -/
theorem exists_of_mem_except_mapM {f : α → Except ε β} {as : List α} {bs : List β} {b : β}
    (h : as.mapM f = .ok bs) (hb : b ∈ bs) : ∃ a ∈ as, f a = .ok b :=
  (exists_of_forall₂ (forall₂_of_except_mapM h)).2 b hb

/-- A filtered entry has passed the test. -/
theorem of_mem_except_filterAuxM {p : α → Except ε Bool} {as acc bs : List α} {a : α}
    (h : as.filterAuxM p acc = .ok bs) (ha : a ∈ bs) : a ∈ acc ∨ a ∈ as ∧ p a = .ok true := by
  induction as generalizing acc with
  | nil =>
    cases h
    exact .inl ha
  | cons c as ih =>
    obtain ⟨isIn, hin, hrest⟩ := except_bind_ok_iff.1 h
    rcases ih hrest with hacc | ⟨hmem, hp⟩
    · cases isIn with
      | false => exact .inl hacc
      | true =>
        rcases List.mem_cons.1 hacc with rfl | hacc
        · exact .inr ⟨List.mem_cons_self, hin⟩
        · exact .inl hacc
    · exact .inr ⟨List.mem_cons_of_mem _ hmem, hp⟩

/-- What a computed test selects of a list passes the test. -/
theorem of_mem_except_filterM {p : α → Except ε Bool} {as bs : List α} {a : α}
    (h : as.filterM p = .ok bs) (ha : a ∈ bs) : a ∈ as ∧ p a = .ok true := by
  obtain ⟨found, hfound, hpure⟩ := except_bind_ok_iff.1 h
  cases hpure
  rcases of_mem_except_filterAuxM hfound (List.mem_reverse.1 ha) with hnil | hmem
  · cases hnil
  · exact hmem

/-- Computations that carry a result along a list keep what each of them keeps. -/
theorem except_foldlM_keeps {I : β → Prop} {f : β → α → Except ε β} {as : List α} {b b' : β}
    (hf : ∀ {b a b'}, a ∈ as → I b → f b a = .ok b' → I b') (hb : I b)
    (h : as.foldlM f b = .ok b') : I b' := by
  induction as generalizing b with
  | nil =>
    cases h
    exact hb
  | cons a as ih =>
    rw [List.foldlM_cons] at h
    obtain ⟨b₁, hfirst, hrest⟩ := except_bind_ok_iff.1 h
    exact ih (fun ha => hf (List.mem_cons_of_mem _ ha)) (hf List.mem_cons_self hb hfirst) hrest

/-- Does a step end well, with a result and a state that pass a test? -/
def endsIn (x : EStateM ε σ α) (s : σ) (p : α → σ → Bool) : Bool :=
  match x s with
  | .ok a t => p a t
  | .error _ _ => false

/-- A run that ends well, from its test. -/
theorem exists_ok_of_endsIn {x : EStateM ε σ α} {s : σ} {p : α → σ → Bool}
    (h : endsIn x s p = true) : ∃ a t, x s = .ok a t ∧ p a t = true := by
  unfold endsIn at h
  cases hx : x s with
  | ok a t =>
    rw [hx] at h
    exact ⟨a, t, rfl, h⟩
  | error e t =>
    rw [hx] at h
    cases h

/-- Does a step fail in a way that passes a test? -/
def failsIn (x : EStateM ε σ α) (s : σ) (p : ε → Bool) : Bool :=
  match x s with
  | .ok _ _ => false
  | .error e _ => p e

/-- A run that fails, from its test. -/
theorem exists_error_of_failsIn {x : EStateM ε σ α} {s : σ} {p : ε → Bool}
    (h : failsIn x s p = true) : ∃ e t, x s = .error e t ∧ p e = true := by
  unfold failsIn at h
  cases hx : x s with
  | ok a t =>
    rw [hx] at h
    cases h
  | error e t =>
    rw [hx] at h
    exact ⟨e, t, rfl, h⟩

/-- A property of steps that passes through sequences: what comes second need only have it for the
results that the first can yield. -/
structure StepClosed (P : ∀ {α : Type}, EStateM ε σ α → Prop) : Prop where
  pure : ∀ {α : Type} (a : α), P (Pure.pure a)
  bind : ∀ {α β : Type} {x : EStateM ε σ α} {f : α → EStateM ε σ β}, P x →
    (∀ {s a t}, x s = .ok a t → P (f a)) → P (x >>= f)

/-! ### Relations between the first and the last state -/

/-- Whenever the step ends well, `R` holds between its first and its last state. -/
def Leads (R : σ → σ → Prop) (x : EStateM ε σ α) : Prop :=
  ∀ ⦃s a t⦄, x s = .ok a t → R s t

namespace Leads

variable {R : σ → σ → Prop}

theorem pure [Std.Refl R] (a : α) : Leads R (Pure.pure a : EStateM ε σ α) := by
  intro s a' t h
  cases h
  exact refl s

theorem throw (e : ε) : Leads R (throw e : EStateM ε σ α) := by
  intro s a t h
  cases h

theorem modify {f : σ → σ} (h : ∀ s, R s (f s)) : Leads R (modify f : EStateM ε σ PUnit) := by
  intro s u t hrun
  cases hrun
  exact h s

theorem get [Std.Refl R] : Leads R (get : EStateM ε σ σ) := by
  intro s a t h
  cases h
  exact refl s

theorem lift {R : σ → σ → Prop} [Std.Refl R] (x : Except Failure α) :
    Leads R (liftM x : EStateM Failure σ α) := by
  intro s a t h
  rw [(lift_ok_iff.1 h).2]
  exact refl s

theorem need {R : σ → σ → Prop} [Std.Refl R] (x : Option α) :
    Leads R (need x : EStateM Failure σ α) := by
  intro s a t h
  rw [(need_ok_iff.1 h).2]
  exact refl s

theorem bind {x : EStateM ε σ α} {f : α → EStateM ε σ β} [IsTrans σ R] (hx : Leads R x)
    (hf : ∀ a, Leads R (f a)) : Leads R (x >>= f) := by
  intro s b t h
  obtain ⟨a, s₁, h₁, h₂⟩ := bind_ok_iff.1 h
  exact IsTrans.trans _ _ _ (hx h₁) (hf a h₂)

/-- Steps in a row lead where each of them leads. -/
theorem closed [Std.Refl R] [IsTrans σ R] :
    StepClosed (fun {α} (x : EStateM ε σ α) => Leads R x) where
  pure := pure
  bind hx hf := by
    intro s b t h
    obtain ⟨a, s₁, h₁, h₂⟩ := bind_ok_iff.1 h
    exact IsTrans.trans _ _ _ (hx h₁) (hf h₁ h₂)

/-- A step after one that leaves the state alone. -/
theorem after {x : EStateM ε σ α} {f : α → EStateM ε σ β} (hx : Leads Eq x)
    (hf : ∀ a, Leads R (f a)) : Leads R (x >>= f) := by
  intro s b t h
  obtain ⟨a, s₁, h₁, h₂⟩ := bind_ok_iff.1 h
  rw [hx h₁]
  exact hf a h₂

/-- A step for each entry of a list. -/
theorem forM [Std.Refl R] [IsTrans σ R] {f : β → EStateM ε σ PUnit} {l : List β}
    (hf : ∀ b ∈ l, Leads R (f b)) : Leads R (l.forM f) := by
  induction l with
  | nil => exact pure _
  | cons b l ih => exact bind (hf b (by simp)) fun _ => ih fun c hc => hf c (by simp [hc])

/-- So do steps over a list. -/
theorem mapM [Std.Refl R] [IsTrans σ R] {f : β → EStateM ε σ α} (hf : ∀ b, Leads R (f b))
    (l : List β) : Leads R (l.mapM f) := by
  induction l with
  | nil => exact pure _
  | cons b l ih =>
    rw [List.mapM_cons]
    exact bind (hf b) fun _ => bind ih fun _ => pure _

end Leads

/-! ### Results -/

/-- Whenever the step ends well, `Q` holds of its result. -/
def Yields (Q : α → Prop) (x : EStateM ε σ α) : Prop :=
  ∀ ⦃s a t⦄, x s = .ok a t → Q a

namespace Yields

variable {Q : α → Prop}

theorem pure {a : α} (h : Q a) : Yields Q (Pure.pure a : EStateM ε σ α) := by
  intro s a' t hrun
  cases hrun
  exact h

theorem throw (e : ε) : Yields Q (throw e : EStateM ε σ α) := by
  intro s a t hrun
  cases hrun

theorem mono {R : α → Prop} {x : EStateM ε σ α} (hx : Yields Q x) (h : ∀ a, Q a → R a) :
    Yields R x := by
  intro s a t hrun
  exact h a (hx hrun)

theorem lift (x : Except Failure α) :
    Yields (fun a => x = .ok a) (liftM x : EStateM Failure σ α) := by
  intro s a t hrun
  exact (lift_ok_iff.1 hrun).1

theorem need (x : Option α) : Yields (fun a => x = some a) (need x : EStateM Failure σ α) := by
  intro s a t hrun
  exact (need_ok_iff.1 hrun).1

theorem bind {Q : β → Prop} {x : EStateM ε σ α} {f : α → EStateM ε σ β}
    (hf : ∀ a, Yields Q (f a)) : Yields Q (x >>= f) := by
  intro s b t h
  obtain ⟨a, s₁, -, h₂⟩ := bind_ok_iff.1 h
  exact hf a h₂

/-- A step after one of whose result something is known. -/
theorem andThen {R : β → Prop} {x : EStateM ε σ α} {f : α → EStateM ε σ β} (hx : Yields Q x)
    (hf : ∀ a, Q a → Yields R (f a)) : Yields R (x >>= f) := by
  intro s b t h
  obtain ⟨a, s₁, h₁, h₂⟩ := bind_ok_iff.1 h
  exact hf a (hx h₁) h₂

theorem map {R : β → Prop} {x : EStateM ε σ α} {f : α → β} (hx : Yields Q x)
    (h : ∀ a, Q a → R (f a)) : Yields R (f <$> x) := by
  rw [map_eq_pure_bind]
  exact hx.andThen fun a ha => pure (h a ha)

/-- A step for each entry of a list. -/
theorem mapM {Q : β → α → Prop} {f : β → EStateM ε σ α} {l : List β}
    (hf : ∀ b ∈ l, Yields (Q b) (f b)) : Yields (List.Forall₂ Q l) (l.mapM f) := by
  induction l with
  | nil => exact pure .nil
  | cons b l ih =>
    rw [List.mapM_cons]
    refine (hf b (by simp)).andThen fun a ha => ?_
    exact (ih fun c hc => hf c (by simp [hc])).andThen fun as has => pure (.cons ha has)

/-- Steps that carry a result along a list. What `I` says of the entries so far and of the result is
kept. -/
theorem foldlM {I : List β → α → Prop} {f : α → β → EStateM ε σ α}
    (hf : ∀ done a b, I done a → Yields (I (done ++ [b])) (f a b)) (l : List β) {done : List β}
    {a : α} (h : I done a) : Yields (I (done ++ l)) (l.foldlM f a) := by
  induction l generalizing done a with
  | nil =>
    rw [List.append_nil]
    exact pure h
  | cons b l ih =>
    rw [List.foldlM_cons]
    refine (hf done a b h).andThen fun a' ha' => ?_
    have := ih ha'
    rwa [List.append_assoc] at this

end Yields

end Sveltify
