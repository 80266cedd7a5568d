import Sveltify.Proofs.Assembly.Lost
import Sveltify.Proofs.Conversion.StrictMode
import Sveltify.Proofs.Text

namespace Sveltify

/-!
# Placeholders and diagnostics

Every placeholder in a Svelte component carries the mark of its own diagnostic. A diagnostic may be
without its placeholder, though: what is reported about a part of a block stays reported even if the
block is refused later on.

* `Collector.diagnostics_recordAll`: the diagnostics that reports become;
* `Diagnostic.isTodo`: is a diagnostic the error about a construct left as a placeholder?
* `todos_perm`: the diagnostics of an assembly are those of the placeholders in the component and of
  those that are lost;
* `placeholders_traceable`: each placeholder has a diagnostic of its own;
* `todo_lost_only_with_blocks`: which diagnostics have no placeholder.
-/

/-! ### Diagnostics of reports -/

namespace Collector

/-- The diagnostic that a report becomes under a number. -/
def diagnosticFor (c : Collector) (e : Report × Nat) : Diagnostic := { c.next e.1 with id := e.2 }

theorem diagnostics_recordAll (c : Collector) (reports : List Report) :
    (c.recordAll reports).diagnostics =
      c.diagnostics ++ (reports.zipIdx (c.diagnostics.length + 1)).map c.diagnosticFor := by
  induction reports generalizing c with
  | nil => simp
  | cons r reports ih =>
    -- Recording changes neither the flag nor the name that diagnostics depend on.
    have same : (c.record r).diagnosticFor = c.diagnosticFor := rfl
    have recorded : (c.record r).diagnostics = c.diagnostics ++ [c.next r] := rfl
    rw [recordAll_cons, ih, same, recorded, List.zipIdx_cons, List.map_cons, List.append_assoc,
      List.length_append, List.length_singleton]
    rfl

/-- The diagnostics of the reports that come after others. -/
theorem drop_recordAll {c : Collector} (hfresh : c.diagnostics = []) (reports new : List Report) :
    (c.recordAll (reports ++ new)).diagnostics.drop reports.length =
      (new.zipIdx (reports.length + 1)).map c.diagnosticFor := by
  have length : ((reports.zipIdx 1).map c.diagnosticFor).length = reports.length := by simp
  rw [diagnostics_recordAll, hfresh, List.nil_append, List.length_nil, Nat.zero_add,
    List.zipIdx_append, List.map_append, Nat.add_comm 1, ← length, List.drop_left, length]

theorem severity_diagnosticFor {c : Collector} {e : Report × Nat} (h : e.1.severity = .error) :
    (c.diagnosticFor e).severity = .error := by
  show (if c.strict then e.1.severity.escalate else e.1.severity) = .error
  rw [h]
  split <;> rfl

end Collector

/-- Is the diagnostic the error about a construct that is left as a placeholder? -/
def Diagnostic.isTodo (d : Diagnostic) : Bool :=
  d.stage == .lower && d.severity == .error && d.code == Code.unsupportedPattern

namespace Assembly

open Analysis Component Svelte

variable {src : Source} {model : Model} {indent : String}

/-- Different diagnostics have different marks. -/
theorem todo_injective : Function.Injective todo := by
  intro i j h
  have markers : markerOf i = markerOf j := by
    have : "TODO(" ++ markerOf i ++ ")" = "TODO(" ++ markerOf j ++ ")" := h
    rwa [String.append_left_inj, String.append_right_inj] at this
  exact Text.numbered_injective "r2s#" markers

/-- The notice that a diagnostic gives. -/
def diagnosticNotice (d : Diagnostic) : Notice where
  marker := todo d.id
  severity := d.severity
  message := d.message

/-- If all notices are errors, then they are those of the diagnostics. -/
theorem map_diagnosticNotice (collector : Collector) (k : Nat) {new : List Report}
    (herror : ∀ notice ∈ notices k new, notice.severity = .error) :
    (((new.zipIdx (k + 1)).map collector.diagnosticFor).filter Diagnostic.isTodo).map
      diagnosticNotice = notices k new := by
  have error {e : Report × Nat} (he : e ∈ new.zipIdx (k + 1)) (htodo : isTodo e.1 = true) :
      e.1.severity = .error :=
    herror (reportNotice e) (List.mem_map_of_mem (List.mem_filter.2 ⟨he, htodo⟩))
  -- A TODO is reported as an error, and strictness leaves errors as they are.
  have same : ∀ e ∈ new.zipIdx (k + 1),
      Diagnostic.isTodo (collector.diagnosticFor e) = isTodo e.1 := by
    intro e he
    show (e.1.stage == .lower && (collector.diagnosticFor e).severity == .error
      && e.1.code == Code.unsupportedPattern) = isTodo e.1
    cases htodo : isTodo e.1 with
    | true =>
      rw [Collector.severity_diagnosticFor (error he htodo), ← htodo]
      simp [isTodo]
    | false =>
      have := htodo
      simp only [isTodo, Bool.and_eq_false_iff] at this ⊢
      tauto
  rw [List.filter_map, List.map_map, notices]
  have filtered : (new.zipIdx (k + 1)).filter (Diagnostic.isTodo ∘ collector.diagnosticFor) =
      (new.zipIdx (k + 1)).filter fun e => isTodo e.1 := List.filter_congr same
  rw [filtered]
  refine List.map_congr_left fun e he => ?_
  obtain ⟨hmem, htodo⟩ := List.mem_filter.1 he
  have severity := error hmem htodo
  show diagnosticNotice (collector.diagnosticFor e) = reportNotice e
  unfold diagnosticNotice reportNotice
  rw [Collector.severity_diagnosticFor severity, severity]
  rfl

section Run

variable {reports reports' : List Report} {c : SvelteComponent} {collector : Collector}

/-- The diagnostics that the assembly of a component adds about constructs left as placeholders. -/
def addedTodos (collector : Collector) (reports reports' : List Report) : List Diagnostic :=
  ((collector.recordAll reports').diagnostics.drop reports.length).filter Diagnostic.isTodo

/-- The diagnostics about what is left behind are those of the placeholders in the component and of
the placeholders that are lost. -/
theorem todos_perm (h : toSvelte src model indent reports = .ok c reports')
    (hfresh : collector.diagnostics = []) :
    ∃ gone : List Placeholder,
      ((addedTodos collector reports reports').map diagnosticNotice).Perm
        ((placeholders c ++ gone).map placeholderNotice) ∧
      (gone.map leftoverIn).Perm ((shownPieces model).flatMap (nodeLost src model)) := by
  obtain ⟨q, hrun, rfl⟩ := assembleComponent_of_toSvelte h
  obtain ⟨gone, ⟨new, hnew, hperm⟩, hlost⟩ := tally_assembleComponent hrun
  rw [List.map_nil, List.append_nil] at hperm
  refine ⟨gone, ?_, hlost⟩
  rw [addedTodos, hnew, Collector.drop_recordAll hfresh, map_diagnosticNotice]
  · exact hperm
  · intro notice hnotice
    obtain ⟨ph, -, rfl⟩ := List.mem_map.1 (hperm.subset hnotice)
    rfl

theorem nodup_todos (hfresh : collector.diagnostics = []) :
    ((addedTodos collector reports reports').map fun d => todo d.id).Nodup := by
  have numbered : (collector.recordAll reports').Numbered := by
    refine Collector.Numbered.recordAll ?_ reports'
    rw [Collector.Numbered, hfresh]
    rfl
  have ids : ((collector.recordAll reports').diagnostics.map (·.id)).Nodup := by
    rw [numbered]
    exact List.nodup_range'
  have added : ((addedTodos collector reports reports').map (·.id)).Nodup :=
    ids.sublist ((List.filter_sublist.trans (List.drop_sublist _ _)).map _)
  have marks := added.map todo_injective
  rwa [List.map_map] at marks

/-- The marks of all placeholders that the assembly makes are different. -/
theorem nodup_markers (hfresh : collector.diagnostics = []) {gone : List Placeholder}
    (hperm : ((addedTodos collector reports reports').map diagnosticNotice).Perm
      ((placeholders c ++ gone).map placeholderNotice)) :
    ((placeholders c).map (·.marker) ++ gone.map (·.marker)).Nodup := by
  have marks := hperm.map (·.marker)
  rw [List.map_map, List.map_map, List.map_append] at marks
  exact marks.nodup_iff.1 (nodup_todos hfresh)

/-- **Every placeholder is traceable.** Whatever component is assembled, each placeholder in its
scripts and at any depth of its markup carries the mark of a diagnostic. That is an error of the
assembly about an unsupported pattern, and its message is the reason on the placeholder. No two
placeholders carry the same mark. -/
theorem placeholders_traceable (h : toSvelte src model indent reports = .ok c reports')
    (collector : Collector) (hfresh : collector.diagnostics = []) :
    (∀ p ∈ placeholders c, ∃ d ∈ (collector.recordAll reports').diagnostics,
      p.marker = s!"TODO({d.marker})" ∧ d.severity = .error ∧ d.stage = .lower ∧
      d.code = Code.unsupportedPattern ∧ d.message = p.reason ++ "; left as a TODO") ∧
    ((placeholders c).map (·.marker)).Nodup := by
  obtain ⟨gone, hperm, -⟩ := todos_perm h hfresh
  constructor
  · intro p hp
    have notice : placeholderNotice p ∈
        (addedTodos collector reports reports').map diagnosticNotice :=
      hperm.symm.subset (List.mem_map_of_mem (List.mem_append_left gone hp))
    obtain ⟨d, hd, heq⟩ := List.mem_map.1 notice
    obtain ⟨hadded, htodo⟩ := List.mem_filter.1 hd
    have hmarker : todo d.id = p.marker := congrArg Notice.marker heq
    have hseverity : d.severity = .error := congrArg Notice.severity heq
    have hmessage : d.message = p.reason ++ "; left as a TODO" := congrArg Notice.message heq
    rw [Diagnostic.isTodo, Bool.and_eq_true, Bool.and_eq_true] at htodo
    exact ⟨d, List.mem_of_mem_drop hadded, hmarker.symm, hseverity, eq_of_beq htodo.1.1,
      eq_of_beq htodo.2, hmessage⟩
  · exact (nodup_markers hfresh hperm).of_append_left

/-- The diagnostics without a placeholder are those of the placeholders that are gone. -/
theorem orphans_perm (hfresh : collector.diagnostics = []) {gone : List Placeholder}
    (hperm : ((addedTodos collector reports reports').map diagnosticNotice).Perm
      ((placeholders c ++ gone).map placeholderNotice)) :
    (((addedTodos collector reports reports').filter fun d =>
        ((placeholders c).map (·.marker)).count (todo d.id) = 0).map diagnosticNotice).Perm
      (gone.map placeholderNotice) := by
  have disjoint := (List.nodup_append.1 (nodup_markers hfresh hperm)).2.2
  let absent (notice : Notice) : Bool :=
    decide (((placeholders c).map (·.marker)).count notice.marker = 0)
  -- Only what is gone is left of the placeholders, once those in the component are taken out.
  have kept : ((placeholders c).map placeholderNotice).filter absent = [] := by
    rw [List.filter_eq_nil_iff]
    intro notice hnotice
    obtain ⟨ph, hph, rfl⟩ := List.mem_map.1 hnotice
    have : ph.marker ∈ (placeholders c).map (·.marker) := List.mem_map_of_mem hph
    simpa [absent, placeholderNotice, List.count_eq_zero] using this
  have lost : (gone.map placeholderNotice).filter absent = gone.map placeholderNotice := by
    rw [List.filter_eq_self]
    intro notice hnotice
    obtain ⟨ph, hph, rfl⟩ := List.mem_map.1 hnotice
    have : ph.marker ∉ (placeholders c).map (·.marker) := fun hmem =>
      disjoint _ hmem _ (List.mem_map_of_mem hph) rfl
    exact decide_eq_true (List.count_eq_zero.2 this)
  have filtered := hperm.filter absent
  rw [List.map_append, List.filter_append, kept, List.nil_append, lost, List.filter_map] at filtered
  exact filtered

/-- **Only blocks orphan diagnostics.** The mark of each diagnostic about a construct left as a
placeholder is on one placeholder of the component at most. Those on none are the diagnostics about
what is lost with blocks that are refused after parts of them were made. So each is on exactly one
just if nothing is lost. -/
theorem todo_lost_only_with_blocks (h : toSvelte src model indent reports = .ok c reports')
    (collector : Collector) (hfresh : collector.diagnostics = []) :
    let todos := addedTodos collector reports reports'
    let marks := (placeholders c).map (·.marker)
    let lost := (shownPieces model).flatMap (nodeLost src model)
    (∀ d ∈ todos, marks.count (todo d.id) ≤ 1) ∧
    ((todos.filter fun d => marks.count (todo d.id) = 0).map (·.message)).Perm
      (lost.map fun w => w.reason ++ "; left as a TODO") ∧
    ((∀ d ∈ todos, marks.count (todo d.id) = 1) ↔ lost = []) := by
  intro todos marks lost
  obtain ⟨gone, hperm, hlost⟩ := todos_perm h hfresh
  have single (d : Diagnostic) : marks.count (todo d.id) ≤ 1 :=
    List.nodup_iff_count_le_one.1 (nodup_markers hfresh hperm).of_append_left _
  have orphans : ((todos.filter fun d => marks.count (todo d.id) = 0).map (·.message)).Perm
      (lost.map fun w => w.reason ++ "; left as a TODO") := by
    have messages := (orphans_perm hfresh hperm).map (·.message)
    rw [List.map_map, List.map_map] at messages
    have reasons := hlost.map fun w => w.reason ++ "; left as a TODO"
    rw [List.map_map] at reasons
    exact messages.trans reasons
  refine ⟨fun d _ => single d, orphans, ?_⟩
  constructor
  · intro hall
    have none : (todos.filter fun d => marks.count (todo d.id) = 0) = [] := by
      rw [List.filter_eq_nil_iff]
      intro d hd
      simp [hall d hd]
    rw [none, List.map_nil, List.nil_perm, List.map_eq_nil_iff] at orphans
    exact orphans
  · intro hnone d hd
    rw [hnone, List.map_nil, List.perm_nil, List.map_eq_nil_iff, List.filter_eq_nil_iff] at orphans
    have := orphans d hd
    have := single d
    simp only [decide_eq_true_eq] at *
    omega

end Run

section Sample

open Node

/-- An attribute whose value is an element. -/
def markupAttribute (start : Nat) : Node :=
  plain "jsx_attribute" start (start + 8)
    [plain "property_identifier" start (start + 1) [],
     plain "jsx_expression" (start + 2) (start + 8) [emptyElement (start + 3) none]]

/-- A component with an attribute that is markup, and with another one further inside. -/
def markupAttributesModule : Module :=
  appModule
    "function App() \x7b return <p a=\x7b<b/>\x7d><i c=\x7b<u/>\x7d/></p>; \x7d" [] 15
    [plain "return_statement" 17 54 [plain "jsx_element" 24 53
      [plain "jsx_opening_element" 24 36
        [plain "identifier" 25 26 [] (some "name"), markupAttribute 27] (some "open_tag"),
       plain "jsx_self_closing_element" 36 49
        [plain "identifier" 37 38 [] (some "name"), markupAttribute 39],
       plain "jsx_closing_element" 49 53 [] (some "close_tag")]]]

/-- Both attributes are traceable. -/
theorem placeholders_traceable_of_attributes : ∃ model reports c reports',
    analyze markupAttributesModule {} [] = .ok model reports ∧
    toSvelte markupAttributesModule.source model "  " reports = .ok c reports' ∧
    (placeholders c).length = 2 ∧
    (∀ p ∈ placeholders c, ∃ d ∈ (({} : Collector).recordAll reports').diagnostics,
      p.marker = s!"TODO({d.marker})" ∧ d.severity = .error ∧ d.stage = .lower ∧
      d.code = Code.unsupportedPattern ∧ d.message = p.reason ++ "; left as a TODO") ∧
    ((placeholders c).map (·.marker)).Nodup := by
  have test : endsIn (analyze markupAttributesModule {}) [] (fun model reports =>
      endsIn (toSvelte markupAttributesModule.source model "  ") reports (fun c _ =>
        (placeholders c).length == 2)) = true := by
    decide +kernel
  obtain ⟨model, reports, hmodel, hchecked⟩ := exists_ok_of_endsIn test
  obtain ⟨c, reports', hrun, hlength⟩ := exists_ok_of_endsIn hchecked
  exact ⟨model, reports, c, reports', hmodel, hrun, eq_of_beq hlength,
    placeholders_traceable hrun {} rfl⟩

/-- A component with a condition that is markup, after a branch with an attribute that is. -/
def markupConditionModule : Module :=
  appModule "function App() \x7b return a ? <p c=\x7b<b/>\x7d/> : <i/> ? <u/> : null; \x7d" [] 15
    [plain "return_statement" 17 63 [plain "ternary_expression" 24 62
      [plain "identifier" 24 25 [] (some "condition"),
       plain "jsx_self_closing_element" 28 41
        [plain "identifier" 29 30 [] (some "name"), markupAttribute 31] (some "consequence"),
       plain "ternary_expression" 44 62
        [emptyElement 44 (some "condition"), emptyElement 51 (some "consequence"),
         plain "null" 58 62 [] (some "alternative")] (some "alternative")]]]

/-- The attribute is lost with the block around it. -/
theorem todo_lost_with_condition : ∃ model reports c reports',
    analyze markupConditionModule {} [] = .ok model reports ∧
    toSvelte markupConditionModule.source model "  " reports = .ok c reports' ∧
    (addedTodos {} reports reports').length = 2 ∧
    ((shownPieces model).flatMap (nodeLost markupConditionModule.source model)).length = 1 ∧
    ((∀ d ∈ addedTodos {} reports reports',
        ((placeholders c).map (·.marker)).count (todo d.id) = 1) ↔
      (shownPieces model).flatMap (nodeLost markupConditionModule.source model) = []) := by
  have test : endsIn (analyze markupConditionModule {}) [] (fun model reports =>
      endsIn (toSvelte markupConditionModule.source model "  ") reports (fun _ reports' =>
        (addedTodos {} reports reports').length == 2 &&
          ((shownPieces model).flatMap (nodeLost markupConditionModule.source model)).length == 1))
      = true := by
    decide +kernel
  obtain ⟨model, reports, hmodel, hchecked⟩ := exists_ok_of_endsIn test
  obtain ⟨c, reports', hrun, hcounts⟩ := exists_ok_of_endsIn hchecked
  obtain ⟨htodos, hlost⟩ := Bool.and_eq_true_iff.1 hcounts
  exact ⟨model, reports, c, reports', hmodel, hrun, eq_of_beq htodos, eq_of_beq hlost,
    (todo_lost_only_with_blocks hrun {} rfl).2.2⟩

/-- A component may be assembled with a diagnostic whose placeholder is nowhere in it. -/
theorem todo_without_placeholder : ∃ model reports c reports',
    analyze markupConditionModule {} [] = .ok model reports ∧
    toSvelte markupConditionModule.source model "  " reports = .ok c reports' ∧
    ∃ d ∈ (({} : Collector).recordAll reports').diagnostics, d.isTodo = true ∧
      ∀ p ∈ placeholders c, p.marker ≠ todo d.id := by
  have test : endsIn (analyze markupConditionModule {}) [] (fun model reports =>
      endsIn (toSvelte markupConditionModule.source model "  ") reports (fun c reports' =>
        (({} : Collector).recordAll reports').diagnostics.any fun d =>
          d.isTodo && (placeholders c).all (·.marker != todo d.id))) = true := by
    decide +kernel
  obtain ⟨model, reports, hmodel, hchecked⟩ := exists_ok_of_endsIn test
  obtain ⟨c, reports', hrun, horphan⟩ := exists_ok_of_endsIn hchecked
  obtain ⟨d, hd, hboth⟩ := List.any_eq_true.1 horphan
  obtain ⟨htodo, hnone⟩ := Bool.and_eq_true_iff.1 hboth
  exact ⟨model, reports, c, reports', hmodel, hrun, d, hd, htodo, fun p hp =>
    bne_iff_ne.1 (List.all_eq_true.1 hnone p hp)⟩

end Sample

end Assembly

end Sveltify
