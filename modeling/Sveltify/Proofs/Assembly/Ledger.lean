import Sveltify.Proofs.Assembly.Plain

namespace Sveltify.Assembly

open Component Expression Svelte

/-!
# The ledger of placeholders

Whenever a construct is left behind, a report is made and a placeholder with the mark of that report
is handed on. It stays in hand, ends in the result of the step, or is thrown away together with the
part that it stands in.

* `notices`: the marks and messages of the reports about what is left behind;
* `Balanced p q before after gone`: what was in hand and what has been reported since is what is in
  hand now and what is gone;
* `Tally before kept lost x`: if `x` ends well, then `kept` tells what is in hand, and `lost` what
  was written on the placeholders that are gone;
* `Spends before spent x`: the same for a step that is refused, when all is gone.
-/

variable {src : Source} {model : Model} {α β γ : Type}

/-! ### Notices -/

/-- What a placeholder and the report that it refers to have in common. -/
structure Notice where
  marker : String
  severity : Severity
  message : String
deriving DecidableEq

/-- The notice that a report gives under its number. -/
def reportNotice (e : Report × Nat) : Notice where
  marker := todo e.2
  severity := e.1.severity
  message := e.1.message

/-- The notice that a placeholder refers to. -/
def placeholderNotice (p : Placeholder) : Notice where
  marker := p.marker
  severity := .error
  message := p.reason ++ "; left as a TODO"

/-- The notices of what is left behind, in reports that come after `k` others. -/
def notices (k : Nat) (reports : List Report) : List Notice :=
  ((reports.zipIdx (k + 1)).filter fun e => isTodo e.1).map reportNotice

theorem notices_append (k : Nat) (as bs : List Report) :
    notices k (as ++ bs) = notices k as ++ notices (k + as.length) bs := by
  unfold notices
  rw [List.zipIdx_append, List.filter_append, List.map_append, Nat.add_right_comm]

/-- Other reports are no notices. -/
theorem notices_of_not_todo {r : Report} (h : isTodo r = false) (k : Nat) : notices k [r] = [] := by
  simp [notices, h]

/-! ### Balance -/

/-- The ledger is balanced between two states: the placeholders in hand before, together with what
has been reported since, are those in hand after and those that are gone. -/
def Balanced (p q : Progress) (before after gone : List Placeholder) : Prop :=
  ∃ new, q.reports = p.reports ++ new ∧
    (notices p.reports.length new ++ before.map placeholderNotice).Perm
      ((after ++ gone).map placeholderNotice)

namespace Balanced

variable {p q r : Progress} {before after gone later thrown : List Placeholder}

/-- Without reports nothing changes. -/
theorem of_reports_eq (h : q.reports = p.reports) (hperm : before.Perm after) :
    Balanced p q before after [] := by
  refine ⟨[], by rw [h, List.append_nil], ?_⟩
  rw [List.append_nil]
  exact hperm.map placeholderNotice

/-- One report that is about nothing left behind. -/
theorem of_not_todo {report : Report} (h : isTodo report = false)
    (hq : q.reports = p.reports ++ [report]) : Balanced p q [] [] [] := by
  refine ⟨[report], hq, ?_⟩
  rw [notices_of_not_todo h]
  exact .refl _

/-- One change after another. -/
theorem trans (h : Balanced p q before after gone) (h' : Balanced q r after later thrown) :
    Balanced p r before later (gone ++ thrown) := by
  obtain ⟨new, hnew, hperm⟩ := h
  obtain ⟨new', hnew', hperm'⟩ := h'
  refine ⟨new ++ new', by rw [hnew', hnew, List.append_assoc], ?_⟩
  rw [notices_append]
  rw [hnew, List.length_append] at hperm'
  -- What is in hand in between stands on both sides, so it is counted away.
  rw [List.perm_iff_count] at hperm hperm' ⊢
  intro notice
  have := hperm notice
  have := hperm' notice
  simp only [List.map_append, List.count_append] at *
  omega

/-- Whatever else is in hand stays in hand. -/
theorem frame (h : Balanced p q before after gone) (others : List Placeholder) :
    Balanced p q (others ++ before) (others ++ after) gone := by
  obtain ⟨new, hnew, hperm⟩ := h
  refine ⟨new, hnew, ?_⟩
  rw [List.perm_iff_count] at hperm ⊢
  intro notice
  have := hperm notice
  simp only [List.map_append, List.count_append] at *
  omega

/-- All that is in hand is thrown away. -/
theorem discard (h : Balanced p q before after gone) : Balanced p q before [] (after ++ gone) := h

end Balanced

/-- Plain steps do not touch the ledger. -/
theorem absorbs_balanced : Absorbs src (fun p q => Balanced p q [] [] []) where
  refl p := .of_reports_eq rfl (.refl _)
  trans h h' := h.trans h'
  remark p use := by
    unfold Progress.remark
    split
    · exact .of_reports_eq rfl (.refl _)
    · have remark : isTodo (use.report src) = false := rfl
      exact .of_not_todo remark rfl
  useImports p names := .of_reports_eq rfl (.refl _)
  report p r hr := .of_not_todo hr rfl

/-! ### Steps that end well -/

/-- If the step ends well, then the ledger is balanced with what `kept` tells of the result, and
`lost` is what was written on the placeholders that are gone. -/
def Tally (before : List Placeholder) (kept : α → List Placeholder) (lost : List Leftover)
    (x : Assembling α) : Prop :=
  ∀ ⦃p a q⦄, x p = .ok a q →
    ∃ gone, Balanced p q before (kept a) gone ∧ (gone.map leftoverIn).Perm lost

/-- If the step is refused, then all is gone, and `spent` is what was written on it. -/
def Spends (before : List Placeholder) (spent : List Leftover) (x : Assembling α) : Prop :=
  ∀ ⦃p r q⦄, x p = .error (.refused r) q →
    ∃ gone, Balanced p q before [] gone ∧ (gone.map leftoverIn).Perm spent

namespace Tally

variable {before : List Placeholder} {kept : α → List Placeholder} {lost spent : List Leftover}
  {x : Assembling α}

theorem pure {a : α} (h : before.Perm (kept a)) :
    Tally before kept [] (Pure.pure a : Assembling α) := by
  intro p b q hrun
  cases hrun
  exact ⟨[], .of_reports_eq rfl h, .refl _⟩

/-- One step after another. -/
theorem bind {kept' : β → List Placeholder} {lost' : List Leftover} {f : α → Assembling β}
    (hx : Tally before kept lost x) (hf : ∀ a, Tally (kept a) kept' lost' (f a)) :
    Tally before kept' (lost ++ lost') (x >>= f) := by
  intro p b r hrun
  obtain ⟨a, q, h₁, h₂⟩ := bind_ok_iff.1 hrun
  obtain ⟨gone, hbalance, hlost⟩ := hx h₁
  obtain ⟨gone', hbalance', hlost'⟩ := hf a h₂
  refine ⟨gone ++ gone', hbalance.trans hbalance', ?_⟩
  rw [List.map_append]
  exact hlost.append hlost'

/-- Only the result is changed after a step. -/
theorem map {kept' : β → List Placeholder} {k : α → β} (hx : Tally before kept lost x)
    (hk : ∀ a, (kept a).Perm (kept' (k a))) :
    Tally before kept' lost (x >>= fun a => Pure.pure (k a)) := by
  have := hx.bind fun a => pure (hk a)
  rwa [List.append_nil] at this

/-- A step after one that throws nothing away. -/
theorem thereafter {kept' : β → List Placeholder} {lost' : List Leftover} {f : α → Assembling β}
    (hx : Tally before kept [] x) (hf : ∀ a, Tally (kept a) kept' lost' (f a)) :
    Tally before kept' lost' (x >>= f) := hx.bind hf

/-- Other placeholders stay. -/
theorem frame (h : Tally [] kept lost x) (others : List Placeholder) :
    Tally others (fun a => others ++ kept a) lost x := by
  intro p a q hrun
  obtain ⟨gone, hbalance, hlost⟩ := h hrun
  have := hbalance.frame others
  rw [List.append_nil] at this
  exact ⟨gone, this, hlost⟩

/-- What matters is only the case in which the step is not refused. -/
theorem of_not_refused {f : Option Refusal} {c : Bool} {Q : α → Prop} (he : Ends f c Q x)
    (h : f = none → Tally before kept lost x) : Tally before kept lost x :=
  fun _ _ _ hrun => h (he.ok hrun).1 hrun

theorem modify {f : Progress → Progress} (hf : ∀ p, (f p).reports = p.reports) :
    Tally before (fun _ => before) [] (modify f : Assembling PUnit) := by
  intro p u q hrun
  cases hrun
  exact ⟨[], .of_reports_eq (hf p) (.refl _), .refl _⟩

theorem get : Tally before (fun _ => before) [] (get : Assembling Progress) := by
  intro p a q hrun
  cases hrun
  exact ⟨[], .of_reports_eq rfl (.refl _), .refl _⟩

/-- A step for each entry of a list. -/
theorem mapM {lost : γ → List Leftover} {k : γ → Assembling α} {l : List γ}
    (hk : ∀ b ∈ l, Tally [] kept (lost b) (k b)) :
    Tally [] (fun as => as.flatMap kept) (l.flatMap lost) (l.mapM k) := by
  induction l with
  | nil => exact pure (.refl _)
  | cons b l ih =>
    rw [List.mapM_cons, List.flatMap_cons]
    refine (hk b (by simp)).bind fun a => ?_
    refine ((ih fun c hc => hk c (by simp [hc])).frame (kept a)).map fun as => ?_
    rw [List.flatMap_cons]

/-- A step for each entry of a list that throws nothing away. -/
theorem mapM_nil {k : γ → Assembling α} {l : List γ} (hk : ∀ b ∈ l, Tally [] kept [] (k b)) :
    Tally [] (fun as => as.flatMap kept) [] (l.mapM k) := by
  have all : Tally [] (fun as => as.flatMap kept) (l.flatMap fun _ => []) (l.mapM k) := mapM hk
  rwa [List.flatMap_eq_nil_iff.2 fun _ _ => rfl] at all

/-- Steps that carry a result along a list and throw nothing away. -/
theorem foldlM (kept : α → List Placeholder) {k : α → γ → Assembling α}
    (hk : ∀ a b, Tally (kept a) kept [] (k a b)) (l : List γ) (a : α) :
    Tally (kept a) kept [] (l.foldlM k a) := by
  induction l generalizing a with
  | nil => exact pure (.refl _)
  | cons b l ih =>
    rw [List.foldlM_cons]
    exact (hk a b).thereafter ih

/-- Leaving a construct behind puts one placeholder in hand. -/
theorem leave (n : Node) (reason : String) (construct : Option String) (text : String) :
    Tally before (fun ph => before ++ [ph]) [] (leave src n reason construct text) := by
  intro p ph q hrun
  cases hrun
  refine ⟨[], ⟨[leftBehind src n reason construct], rfl, ?_⟩, .refl _⟩
  -- The mark counts the reports with the one just made, which is its number.
  have marker : todo (p.reports.length + 1) =
      todo (p.reports ++ [leftBehind src n reason construct]).length := by
    rw [List.length_append, List.length_singleton]
  have notice : notices p.reports.length [leftBehind src n reason construct] =
      [placeholderNotice ⟨todo (p.reports ++ [leftBehind src n reason construct]).length, reason,
        outdented src (text ++ src.text n) n⟩] := by
    rw [← marker]
    rfl
  rw [notice, List.append_nil, List.map_append]
  exact List.perm_append_comm

end Tally

/-! ### Steps that are refused -/

namespace Spends

variable {before : List Placeholder} {kept : α → List Placeholder} {lost spent : List Leftover}
  {x : Assembling α} {f : Option Refusal} {c : Bool} {Q : α → Prop}

/-- A step that is never refused spends nothing. -/
theorem of_never (h : Ends none c Q x) : Spends before spent x := by
  intro p r q hrun
  cases (h.refused hrun).1

/-- Whatever else is in hand is spent too. -/
theorem frame (h : Spends [] spent x) (others : List Placeholder) :
    Spends others (others.map leftoverIn ++ spent) x := by
  intro p r q hrun
  obtain ⟨gone, hbalance, hspent⟩ := h hrun
  have := (hbalance.frame others).discard
  rw [List.append_nil] at this
  refine ⟨others ++ gone, this, ?_⟩
  rw [List.map_append]
  exact hspent.append_left _

/-- Of two steps in a row, either the first one is refused, or the second one spends what the first
one has put in hand. -/
theorem bind {spent' : List Leftover} {g : α → Assembling β} (he : Ends f c Q x)
    (hs : Spends before spent x) (hx : Tally before kept lost x)
    (hg : ∀ a, Q a → Spends (kept a) spent' (g a)) :
    Spends before (if f.isSome then spent else lost ++ spent') (x >>= g) := by
  intro p r q hrun
  rcases bind_error_iff.1 hrun with h | ⟨a, q₁, h₁, h₂⟩
  · rw [(he.refused h).1]
    exact hs h
  · obtain ⟨rfl, ha⟩ := he.ok h₁
    obtain ⟨gone, hbalance, hlost⟩ := hx h₁
    obtain ⟨gone', hbalance', hspent⟩ := hg a ha h₂
    refine ⟨gone ++ gone', hbalance.trans hbalance', ?_⟩
    rw [List.map_append]
    exact hlost.append hspent

/-- A step after one that throws nothing away. -/
theorem thereafter {spent' : List Leftover} {g : α → Assembling β} (he : Ends f c Q x)
    (hs : Spends before spent x) (hx : Tally before kept [] x)
    (hg : ∀ a, Q a → Spends (kept a) spent' (g a)) :
    Spends before (if f.isSome then spent else spent') (x >>= g) := bind he hs hx hg

theorem map {k : α → β} (h : Spends before spent x) :
    Spends before spent (x >>= fun a => Pure.pure (k a)) := by
  intro p r q hrun
  rcases bind_error_iff.1 hrun with h₁ | ⟨a, q₁, h₁, h₂⟩
  · exact h h₁
  · cases h₂

end Spends

/-- A construct with a placeholder in its place if it is refused: what it has spent is lost. -/
theorem Tally.orElse_leave {before : List Placeholder} {kept : α → List Placeholder}
    {lost spent : List Leftover} {x : Assembling α} {f : Option Refusal} {c : Bool} {Q : α → Prop}
    {n : Node} {text : String} {put : Placeholder → α} (he : Ends f c Q x)
    (hx : Tally before kept lost x) (hs : Spends [] spent x)
    (hput : ∀ ph, (before ++ [ph]).Perm (kept (put ph))) :
    Tally before kept (if f.isSome then spent else lost)
      (orElse x fun r => do return put (← Assembly.leave src n r.message r.construct text)) := by
  intro p a q hrun
  cases hx' : x p with
  | ok b q₁ =>
    rw [Ends.orElse_of_ok hx'] at hrun
    cases hrun
    rw [(he.ok hx').1]
    exact hx hx'
  | error e q₁ =>
    cases e with
    | refused r =>
      obtain ⟨hf, hr⟩ := he.refused hx'
      rw [Ends.orElse_of_refused hx' hr] at hrun
      rw [hf]
      -- What the refused step has left behind is gone before the placeholder is put.
      obtain ⟨gone, hbalance, hspent⟩ := hs hx'
      have lasting := hbalance.frame before
      rw [List.append_nil] at lasting
      obtain ⟨gone', hbalance', hlost⟩ := (Tally.leave n _ _ _).map hput hrun
      refine ⟨gone ++ gone', lasting.trans hbalance', ?_⟩
      rw [List.map_append]
      simpa using hspent.append hlost
    | incomplete =>
      rw [Ends.orElse_of_incomplete hx'] at hrun
      cases hrun

/-- The same for a construct that throws nothing away. -/
theorem Tally.orElse_leave_nil {before : List Placeholder} {kept : α → List Placeholder}
    {x : Assembling α} {f : Option Refusal} {c : Bool} {Q : α → Prop} {n : Node} {text : String}
    {put : Placeholder → α} (he : Ends f c Q x) (hx : Tally before kept [] x)
    (hs : Spends [] [] x) (hput : ∀ ph, (before ++ [ph]).Perm (kept (put ph))) :
    Tally before kept []
      (orElse x fun r => do return put (← Assembly.leave src n r.message r.construct text)) := by
  rw [← ite_self (c := f.isSome = true) ([] : List Leftover)]
  exact Tally.orElse_leave he hx hs hput

/-! ### Plain steps -/

namespace Plain

variable {x : Assembling α}

/-- A plain step makes no placeholder. -/
theorem tally (h : Plain src x) (before : List Placeholder) :
    Tally before (fun _ => before) [] x := by
  intro p a q hrun
  have := ((h.along absorbs_balanced).ok hrun).frame before
  rw [List.append_nil] at this
  exact ⟨[], this, .refl _⟩

/-- A plain step whose result has no placeholders in it. -/
theorem tally_of_yields {kept : α → List Placeholder} (h : Plain src x)
    (hkept : Yields (fun a => kept a = []) x) : Tally [] kept [] x := by
  intro p a q hrun
  rw [hkept hrun]
  exact h.tally [] hrun

/-- It loses none. -/
theorem spends (h : Plain src x) : Spends [] [] x := by
  intro p r q hrun
  exact ⟨[], (h.along absorbs_balanced).error hrun, .refl _⟩

end Plain

end Sveltify.Assembly
