import Sveltify.Proofs.Assembly.Changes
import Sveltify.Proofs.Conversion.StrictMode

namespace Sveltify

open Analysis Assembly

/-!
# Recording while the stages run

The diagnostics of a run are told from the list of all its reports. The collector may as well be at
work while the stages run, so that what a stage reports is numbered and escalated before the next
stage starts, or before its failure is recorded. The outcome is the same.

* `getElem?_recordAll`: each diagnostic is what the collector, as it was at that time, makes of a
  report;
* `recorded`: a stage with the collector at work;
* `Extends`: a stage adds to the reports made before it, also if it fails;
* `convertRecording`, `convert_eq_convertRecording`: the run of all stages with the collector at
  work.
-/

/-! ### Reports one by one -/

namespace Collector

/-- Reports are recorded in pieces or all at once. -/
theorem recordAll_append (c : Collector) (rs rs' : List Report) :
    c.recordAll (rs ++ rs') = (c.recordAll rs).recordAll rs' :=
  List.foldl_append

/-- Recording adds one diagnostic for each report. -/
theorem exists_recordAll (c : Collector) (rs : List Report) :
    ∃ new, (c.recordAll rs).diagnostics = c.diagnostics ++ new ∧ new.length = rs.length := by
  induction rs generalizing c with
  | nil => exact ⟨[], (List.append_nil _).symm, rfl⟩
  | cons r rs ih =>
    obtain ⟨new, hnew, hlength⟩ := ih (c.record r)
    refine ⟨c.next r :: new, ?_, congrArg (· + 1) hlength⟩
    rw [recordAll_cons, hnew, record, List.append_assoc, List.singleton_append]

/-- **Step by step.** The diagnostic of a report is what the collector makes of it that has recorded
the reports before it, and no more. -/
theorem getElem?_recordAll (c : Collector) (rs : List Report) (k : Nat) :
    (c.recordAll rs).diagnostics[c.diagnostics.length + k]? =
      rs[k]?.map (c.recordAll (rs.take k)).next := by
  induction rs generalizing c k with
  | nil => simp
  | cons r rs ih =>
    cases k with
    | zero =>
      obtain ⟨new, hnew, -⟩ := (c.record r).exists_recordAll rs
      rw [recordAll_cons, hnew]
      simp [record]
    | succ k =>
      have longer : (c.record r).diagnostics.length = c.diagnostics.length + 1 := by simp [record]
      have := ih (c.record r) k
      rw [longer, Nat.add_assoc, Nat.add_comm 1 k] at this
      rw [recordAll_cons, List.getElem?_cons_succ, List.take_succ_cons, recordAll_cons, this]

end Collector

/-! ### Stages -/

/-- A run with the collector at work. -/
abbrev Recording := EStateM Failure (Trace × Collector)

/-- A stage with the collector at work: its own reports are recorded, also if it fails. -/
def recorded {α : Type} (x : Running α) : Recording α := fun s =>
  match x s.1 with
  | .ok a t => .ok a (t, s.2.recordAll (t.reports.drop s.1.reports.length))
  | .error f t => .error f (t, s.2.recordAll (t.reports.drop s.1.reports.length))

/-- A run of which all reports are recorded at its end. -/
def collected {α : Type} (c : Collector) :
    EStateM.Result Failure Trace α → EStateM.Result Failure (Trace × Collector) α
  | .ok a t => .ok a (t, c.recordAll t.reports)
  | .error f t => .error f (t, c.recordAll t.reports)

/-- However the stage ends, the reports made before it stay in front of its own. -/
structure Extends {α : Type} (x : Running α) (t : Trace) : Prop where
  ok : ∀ {a t'}, x t = .ok a t' → t.reports <+: t'.reports
  error : ∀ {f t'}, x t = .error f t' → t.reports <+: t'.reports

section

variable {α β : Type} {x : Running α} {t : Trace} {c : Collector}

/-- Two steps in a row. -/
theorem Extends.bind {f : α → Running β} (hx : Extends x t)
    (hf : ∀ {a t'}, x t = .ok a t' → Extends (f a) t') : Extends (x >>= f) t where
  ok hrun := by
    obtain ⟨a, t₁, h₁, h₂⟩ := bind_ok_iff.1 hrun
    exact (hx.ok h₁).trans ((hf h₁).ok h₂)
  error hrun := by
    rcases bind_error_iff.1 hrun with h₁ | ⟨a, t₁, h₁, h₂⟩
    · exact hx.error h₁
    · exact (hx.ok h₁).trans ((hf h₁).error h₂)

/-- A step that leaves the reports alone. -/
theorem Extends.modify {f : Trace → Trace} (h : (f t).reports = t.reports) :
    Extends (modify f : Running PUnit) t where
  ok hrun := by
    cases hrun
    simp only [h, List.prefix_rfl]
  error hrun := by cases hrun

theorem Extends.pure (a : α) : Extends (Pure.pure a) t where
  ok hrun := by
    cases hrun
    exact List.prefix_rfl
  error hrun := by cases hrun

/-- A step that does not look at the state. -/
theorem Extends.lift (y : Except Failure α) : Extends (liftM y) t where
  ok hrun := by
    simp only [(lift_ok_iff.1 hrun).2, List.prefix_rfl]
  error hrun := by
    cases y with
    | ok a => cases hrun
    | error f =>
      cases hrun
      exact List.prefix_rfl

/-- A stage at the end of which the collector holds what has been reported so far. -/
theorem recorded_eq (h : Extends x t) :
    recorded x (t, c.recordAll t.reports) = collected c (x t) := by
  unfold recorded collected
  cases hx : x t with
  | ok a t' =>
    obtain ⟨new, hnew⟩ := h.ok hx
    dsimp only
    rw [← hnew, List.drop_left, Collector.recordAll_append]
  | error f t' =>
    obtain ⟨new, hnew⟩ := h.error hx
    dsimp only
    rw [← hnew, List.drop_left, Collector.recordAll_append]

/-- **Step.** A stage in front of a run for which recording at its end makes no difference. -/
theorem recorded_bind {f : α → Running β} {g : α → Recording β} (h : Extends x t)
    (hnext : ∀ a t', x t = .ok a t' → g a (t', c.recordAll t'.reports) = collected c (f a t')) :
    (recorded x >>= g) (t, c.recordAll t.reports) = collected c ((x >>= f) t) := by
  show EStateM.bind (recorded x) g _ = collected c (EStateM.bind x f t)
  unfold EStateM.bind
  rw [recorded_eq h]
  cases hx : x t with
  | ok a t' => exact hnext a t' hx
  | error e t' => rfl

end

/-- The assembly adds to the reports, however it ends. -/
theorem bears_reports (src : Source) :
    Bears src fun p q => p.reports <+: q.reports where
  refl _ := List.prefix_rfl
  trans := List.IsPrefix.trans
  remark p use := by
    unfold Progress.remark
    split
    · exact List.prefix_rfl
    · exact List.prefix_append _ _
  useImports _ _ := List.prefix_rfl
  report _ _ _ := List.prefix_append _ _
  leave _ _ := List.prefix_append _ _
  useTags _ _ := List.prefix_rfl

variable {o : Options} {i : Input} {m : Module} {t t' : Trace}

/-- Reading a module reports nothing. -/
theorem reports_readStage (h : readStage o i t = .ok m t') : t'.reports = t.reports := by
  obtain ⟨m', t₁, hmodule, hrest⟩ := bind_ok_iff.1 h
  have same := (lift_ok_iff.1 hmodule).2
  cases hrest
  rw [same]

/-- Reading only adds reports. -/
theorem extends_readStage : Extends (readStage o i) t := by
  unfold readStage
  refine .bind (.lift (i.module o)) fun _ => ?_
  exact .bind (.modify rfl) fun _ => .bind (.modify rfl) fun _ => .pure _

/-- The analysis is the first stage that reports. -/
theorem extends_analyzeStage (h : t.reports = []) : Extends (analyzeStage o m) t where
  ok _ := by
    rw [h]
    exact List.nil_prefix
  error _ := by
    rw [h]
    exact List.nil_prefix

/-- The assembly adds to what the analysis has reported. -/
theorem extends_toSvelte (src : Source) (model : Component.Model) (indent : String) :
    Extends (reporting (toSvelte src model indent)) t := by
  have along : Along (fun p q => p.reports <+: q.reports) (assembleComponent src model indent) :=
    (bears_reports src).along_assembleComponent
  unfold reporting toSvelte
  refine ⟨fun {a t'} hrun => ?_, fun {f t'} hrun => ?_⟩
  all_goals
    cases hassembled : assembleComponent src model indent { reports := t.reports }
    all_goals
      rw [hassembled] at hrun
      cases hrun
  · exact along.ok hassembled
  · exact along.error hassembled

/-- So does the lowering. -/
theorem extends_lowerStage {model : Component.Model} : Extends (lowerStage o m model) t := by
  unfold lowerStage
  refine .bind (.modify rfl) fun _ => ?_
  refine .bind (extends_toSvelte m.source model o.indent) fun _ => ?_
  exact .bind (.modify rfl) fun _ => .pure _

/-- So does printing. -/
theorem extends_emitStage {component : Svelte.SvelteComponent} :
    Extends (emitStage o component) t := by
  unfold emitStage
  refine .bind (.modify rfl) fun _ => ?_
  cases component.print o.indentWidth with
  | ok text => exact .bind (.modify rfl) fun _ => .pure _
  | error e => exact .lift (.error .incomplete)

/-! ### Whole runs -/

/-- All stages with the collector at work. -/
def runRecording (o : Options) (i : Input) : Recording String := do
  let m ← recorded (readStage o i)
  let model ← recorded (analyzeStage o m)
  let component ← recorded (lowerStage o m model)
  recorded (emitStage o component)

/-- **Run.** At the end of the stages the collector holds all that has been reported. -/
theorem runRecording_eq (o : Options) (i : Input) :
    runRecording o i ({}, collectorFor o) = collected (collectorFor o) (runStages o i {}) := by
  refine recorded_bind (t := {}) extends_readStage fun m t₁ hm => ?_
  have first : t₁.reports = [] := reports_readStage hm
  refine recorded_bind (extends_analyzeStage first) fun model t₂ _ => ?_
  refine recorded_bind extends_lowerStage fun component t₃ _ => ?_
  exact recorded_eq extends_emitStage

/-- Convert a source with its syntax tree, with the collector at work while the stages run. -/
def convertRecording (o : Options) (i : Input) : Outcome :=
  match runRecording o i ({}, collectorFor o) with
  | .error f (t, c) =>
    { output := none
      diagnostics := (c.record (failureReport t.stage f)).diagnostics
      journal := t.journal ++ [failureEntry o t.stage f] }
  | .ok text (t, c) =>
    if o.strictMode && c.anyError then
      { output := none
        diagnostics := c.diagnostics
        journal := t.journal ++
          [eventOf o .emit "rejected" [("errors", .count (c.countOf .error))]] }
    else { output := some text, diagnostics := c.diagnostics, journal := t.journal }

/-- It makes no difference whether the collector is at work while the stages run, or at the end. -/
theorem convert_eq_convertRecording (o : Options) (i : Input) :
    convert o i = convertRecording o i := by
  unfold convert convertRecording
  rw [runRecording_eq]
  cases runStages o i {} with
  | error f t =>
    dsimp only [collected]
    rw [Collector.recordAll_append]
    rfl
  | ok text t => rfl

end Sveltify
