import Sveltify.Conversion

namespace Sveltify

/-!
# Strict runs

A strict run and a lenient run of the same input make the same reports in the same order. They
differ in two places only: a strict collector records a warning as an error, and a strict run with
an error withholds its output.

* `Diagnostic.escalate`: a diagnostic as a strict collector records it;
* `Collector.Escalates`: a strict collector that holds the diagnostics of a lenient one, escalated.
  Recording one report keeps this (`Escalates.record`), hence so does a whole run of reports
  (`Escalates.recordAll`);
* `Collector.Numbered`: the diagnostics of a collector carry the numbers from one on. Recording
  keeps this too;
* `runReports`: all reports of a run, its failure included. No stage looks at the strict flag, so
  they are the same in both modes (`runReports_strictMode`);
* `convert_strict_escalates`: what this means for the two outcomes.
-/

/-! ### Diagnostics under a strict collector -/

/-- A diagnostic as a strict collector records it: a warning counts as an error. -/
def Diagnostic.escalate (d : Diagnostic) : Diagnostic :=
  { d with severity := d.severity.escalate }

/-- A warning is recorded as an error, and all else as it is. -/
theorem Diagnostic.escalate_eq (d : Diagnostic) :
    d.escalate = if d.severity = .warning then { d with severity := .error } else d := by
  cases d with
  | mk id severity stage code message place construct => cases severity <;> rfl

/-- What is escalated is an error unless it is a mere remark. -/
theorem Severity.escalate_eq_error_iff (s : Severity) :
    s.escalate = .error ↔ s = .warning ∨ s = .error := by
  cases s <;> simp [Severity.escalate]

namespace Collector

/-- A strict collector that holds the diagnostics of a lenient one, escalated. -/
structure Escalates (lenient strict : Collector) : Prop where
  isLenient : lenient.strict = false
  isStrict : strict.strict = true
  sourceName : strict.sourceName = lenient.sourceName
  diagnostics : strict.diagnostics = lenient.diagnostics.map Diagnostic.escalate

namespace Escalates

variable {lenient strict : Collector}

/-- **Step.** The strict collector records the next report as the lenient one does, escalated. -/
theorem next (h : Escalates lenient strict) (r : Report) :
    strict.next r = (lenient.next r).escalate := by
  unfold Collector.next Diagnostic.escalate
  rw [h.isLenient, h.isStrict, h.sourceName, h.diagnostics, List.length_map]
  rfl

/-- One report more on both sides. -/
theorem record (h : Escalates lenient strict) (r : Report) :
    Escalates (lenient.record r) (strict.record r) := by
  refine ⟨h.isLenient, h.isStrict, h.sourceName, ?_⟩
  show strict.diagnostics ++ [strict.next r] =
    (lenient.diagnostics ++ [lenient.next r]).map Diagnostic.escalate
  rw [h.next r, h.diagnostics, List.map_append, List.map_singleton]

/-- **Run.** However many reports are recorded, the two collectors stay in step. -/
theorem recordAll (h : Escalates lenient strict) (rs : List Report) :
    Escalates (lenient.recordAll rs) (strict.recordAll rs) := by
  induction rs generalizing lenient strict with
  | nil => exact h
  | cons r rs ih =>
    rw [recordAll_cons, recordAll_cons]
    exact ih (h.record r)

/-- The strict collector holds an error as soon as the lenient one holds a warning or an error. -/
theorem anyError_iff (h : Escalates lenient strict) :
    strict.anyError = true ↔
      ∃ d ∈ lenient.diagnostics, d.severity = .warning ∨ d.severity = .error := by
  unfold anyError
  rw [h.diagnostics, List.any_map, List.any_eq_true]
  refine exists_congr fun d => and_congr_right fun _ => ?_
  show (d.severity.escalate == .error) = true ↔ _
  rw [beq_iff_eq, d.severity.escalate_eq_error_iff]

end Escalates

/-- The diagnostics carry the numbers from one on, in order. -/
def Numbered (c : Collector) : Prop :=
  c.diagnostics.map (·.id) = List.range' 1 c.diagnostics.length

/-- A record takes the next number. -/
theorem Numbered.record {c : Collector} (h : c.Numbered) (r : Report) : (c.record r).Numbered := by
  unfold Numbered at h ⊢
  show (c.diagnostics ++ [c.next r]).map (·.id) = _
  rw [List.map_append, h]
  show _ = List.range' 1 (c.diagnostics ++ [c.next r]).length
  rw [List.length_append, List.length_singleton, List.range'_concat]
  simp [Collector.next, Nat.add_comm]

/-- So do all records. -/
theorem Numbered.recordAll {c : Collector} (h : c.Numbered) (rs : List Report) :
    (c.recordAll rs).Numbered := by
  induction rs generalizing c with
  | nil => exact h
  | cons r rs ih =>
    rw [recordAll_cons]
    exact ih (h.record r)

end Collector

/-! ### The reports of a run -/

/-- All reports of a run in order. If a stage fails, the last one says why. -/
def runReports (o : Options) (i : Input) : List Report :=
  match runStages o i {} with
  | .error f t => t.reports ++ [failureReport t.stage f]
  | .ok _ t => t.reports

/-- No stage looks at the strict flag. -/
theorem runStages_strictMode (o : Options) (i : Input) (b : Bool) :
    runStages { o with strictMode := b } i = runStages o i := rfl

/-- The stages do not ask for strict mode. -/
theorem runReports_strictMode (o : Options) (i : Input) (b : Bool) :
    runReports { o with strictMode := b } i = runReports o i := by
  unfold runReports
  rw [runStages_strictMode]

/-- The records are those of the reports. -/
theorem convert_diagnostics (o : Options) (i : Input) :
    (convert o i).diagnostics = ((collectorFor o).recordAll (runReports o i)).diagnostics := by
  unfold convert runReports
  cases runStages o i {} with
  | error f t => rfl
  | ok text t =>
    dsimp only
    split <;> rfl

/-- The output is kept unless an error forbids it. -/
theorem convert_output (o : Options) (i : Input) :
    (convert o i).output =
      match runStages o i {} with
      | .error _ _ => none
      | .ok text _ =>
        if o.strictMode && ((collectorFor o).recordAll (runReports o i)).anyError then none
        else some text := by
  unfold convert runReports
  cases runStages o i {} with
  | error f t => rfl
  | ok text t =>
    dsimp only
    split <;> rfl

/-! ### Both outcomes -/

/-- The collectors of the two modes start in step. -/
theorem collectorFor_escalates (o : Options) :
    (collectorFor { o with strictMode := false }).Escalates
      (collectorFor { o with strictMode := true }) :=
  ⟨rfl, rfl, rfl, rfl⟩

/-- Records are numbered from one. -/
theorem convert_numbered (o : Options) (i : Input) :
    (convert o i).diagnostics.map (·.id) = List.range' 1 (convert o i).diagnostics.length := by
  have h : (collectorFor o).Numbered := rfl
  rw [convert_diagnostics]
  exact h.recordAll _

/-- **Strict mode only escalates.** For every input and all other options alike, the strict run
makes as many diagnostics as the lenient one, under the same numbers from one on. Where the lenient
run has a warning the strict one has the same diagnostic as an error, and every other diagnostic is
as it is in the lenient run. It withholds its output if the lenient run has no
output or has a warning or an error, and else yields the same output. -/
theorem convert_strict_escalates (o : Options) (i : Input) :
    let lenient := convert { o with strictMode := false } i
    let strict := convert { o with strictMode := true } i
    strict.diagnostics.length = lenient.diagnostics.length ∧
    lenient.diagnostics.map (·.id) = List.range' 1 lenient.diagnostics.length ∧
    strict.diagnostics.map (·.id) = List.range' 1 strict.diagnostics.length ∧
    strict.diagnostics = lenient.diagnostics.map (fun d =>
      if d.severity = .warning then { d with severity := .error } else d) ∧
    ((lenient.output = none ∨
        ∃ d ∈ lenient.diagnostics, d.severity = .warning ∨ d.severity = .error) →
      strict.output = none) ∧
    (¬(lenient.output = none ∨
        ∃ d ∈ lenient.diagnostics, d.severity = .warning ∨ d.severity = .error) →
      strict.output = lenient.output) := by
  intro lenient strict
  -- Both collectors read the one list of reports.
  have hstep := (collectorFor_escalates o).recordAll (runReports o i)
  have hlenient : lenient.diagnostics = _ := convert_diagnostics { o with strictMode := false } i
  have hstrict : strict.diagnostics = _ := convert_diagnostics { o with strictMode := true } i
  rw [runReports_strictMode] at hlenient hstrict
  have hmap : strict.diagnostics = lenient.diagnostics.map Diagnostic.escalate := by
    rw [hstrict, hlenient]
    exact hstep.diagnostics
  have herror := hstep.anyError_iff
  rw [← hlenient] at herror
  have hout : lenient.output = _ := convert_output { o with strictMode := false } i
  have hout' : strict.output = _ := convert_output { o with strictMode := true } i
  rw [runStages_strictMode, runReports_strictMode] at hout hout'
  refine ⟨by rw [hmap, List.length_map], convert_numbered _ i, convert_numbered _ i, ?_, ?_, ?_⟩
  · rw [hmap]
    exact List.map_congr_left fun d _ => d.escalate_eq
  · rintro (hnone | hgrave)
    · cases hrun : runStages o i {} with
      | error f t => rw [hout', hrun]
      | ok text t =>
        rw [hout, hrun] at hnone
        simp at hnone
    · rw [hout']
      cases runStages o i {} with
      | error f t => rfl
      | ok text t => simp [herror.2 hgrave]
  · intro hclean
    rw [not_or] at hclean
    rw [hout, hout']
    cases runStages o i {} with
    | error f t => rfl
    | ok text t => simp [mt herror.1 hclean.2]

end Sveltify
