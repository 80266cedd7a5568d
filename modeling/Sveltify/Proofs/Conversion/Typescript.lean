import Sveltify.Proofs.Assembly.Language
import Sveltify.Proofs.Conversion.StrictMode
import Sveltify.Proofs.Svelte.ScriptTag

namespace Sveltify

open Analysis Assembly Component Svelte

/-!
# Runs in both languages

A component without types is converted alike with and without the TypeScript option. The two files
differ in the opening tags of their scripts only.

* `module_typescript`, `analyzeComponent_typescript`: modules are read and analysed alike;
* `EndsAbreast`: how two runs end side by side; `EndsAbreast.bind`: step after step;
* `runStages_typescript`: whole runs;
* `typescript_adds_language`: what this means for the two outcomes.
-/

/-! ### Reading and analysing -/

/-- A module that can be read in one language can be read in the other, and is the same but for the
note of its language. -/
theorem module_typescript (o : Options) (i : Input) :
    (∃ f f', i.module { o with typescript := false } = .error f ∧
      i.module { o with typescript := true } = .error f') ∨
    ∃ m, i.module { o with typescript := false } = .ok m ∧
      i.module { o with typescript := true } = .ok { m with dialect := .typescript } := by
  unfold Input.module Module.read
  cases Module.defect? i.source i.root i.hasError with
  | some found => exact .inl ⟨_, _, rfl, rfl⟩
  | none => exact .inr ⟨_, rfl, rfl⟩

theorem analyzeComponent_typescript (m : Module) (d : Dialect) (o : Options) (b : Bool)
    (c : Choice) :
    analyzeComponent { m with dialect := d } { o with typescript := b } c
      = (fun model => { model with typescript := b }) <$> analyzeComponent m o c := by
  have top : readTopLevel { m with dialect := d } = readTopLevel m := rfl
  simp only [analyzeComponent, top, bind_pure_comp, map_bind, Functor.map_map]
  -- What is left are the warnings about unknown names, which do not look at the language.
  rfl

/-- The dialect makes no difference to the analysis. -/
theorem analyze_typescript (m : Module) (d : Dialect) (o : Options) (b : Bool) :
    analyze { m with dialect := d } { o with typescript := b }
      = (fun model => { model with typescript := b }) <$> analyze m o := by
  have choice : chooseComponent { m with dialect := d } = chooseComponent m := rfl
  simp only [analyze, choice, analyzeComponent_typescript, map_bind]

/-- The component that is assembled for a module. -/
def assembled (m : Module) (o : Options) : Reporting SvelteComponent := do
  toSvelte m.source (← analyze m o) o.indent

/-! ### Two runs side by side -/

/-- Both runs are in the same stage and have made the same reports. -/
structure Trace.Abreast (t t' : Trace) : Prop where
  stage : t.stage = t'.stage
  reports : t.reports = t'.reports

/-- Two runs end side by side: both well, with results that `R` relates, or with one failure. -/
inductive EndsAbreast {α β : Type} (R : α → β → Prop) :
    EStateM.Result Failure Trace α → EStateM.Result Failure Trace β → Prop
  | ok {a : α} {b : β} {t t' : Trace} (h : R a b) (ht : t.Abreast t') :
      EndsAbreast R (.ok a t) (.ok b t')
  | error {f : Failure} {t t' : Trace} (ht : t.Abreast t') :
      EndsAbreast R (.error f t) (.error f t')

namespace EndsAbreast

variable {α β γ δ : Type} {R : α → β → Prop} {S : γ → δ → Prop} {t t' : Trace}

theorem bind {x : Running α} {y : Running β} {f : α → Running γ} {g : β → Running δ}
    (h : EndsAbreast R (x t) (y t'))
    (hnext : ∀ a b s s', x t = .ok a s → R a b → s.Abreast s' → EndsAbreast S (f a s) (g b s')) :
    EndsAbreast S ((x >>= f) t) ((y >>= g) t') := by
  show EndsAbreast S (EStateM.bind x f t) (EStateM.bind y g t')
  unfold EStateM.bind
  generalize hx : x t = r at h
  generalize y t' = r' at h
  cases h with
  | ok hab hs => exact hnext _ _ _ _ hx hab hs
  | error hs => exact .error hs

/-- The journals of the two runs may differ. -/
theorem journalise (ht : t.Abreast t') (entry entry' : JournalEntry Fact) :
    EndsAbreast (fun _ _ => True) (Sveltify.journalise entry t) (Sveltify.journalise entry' t') :=
  .ok trivial ⟨ht.stage, ht.reports⟩

/-- Both runs enter a stage together. -/
theorem enter (ht : t.Abreast t') (stage : Stage) :
    EndsAbreast (fun _ _ => True) (Sveltify.enter stage t) (Sveltify.enter stage t') :=
  .ok trivial ⟨rfl, ht.reports⟩

/-- A step that sees no trace. -/
theorem lift (ht : t.Abreast t') (x : Except Failure α) :
    EndsAbreast (fun a b => x = .ok a ∧ b = a) ((liftM x : Running α) t)
      ((liftM x : Running α) t') := by
  cases x with
  | ok a => exact .ok ⟨rfl, rfl⟩ ht
  | error f => exact .error ht

/-- A step whose result the other run changes by `f`. -/
theorem reporting (ht : t.Abreast t') {x y : Reporting α} {f : α → α}
    (h : y t.reports = (f <$> x) t.reports) :
    EndsAbreast (fun a b => b = f a) (Sveltify.reporting x t) (Sveltify.reporting y t') := by
  have hx : (f <$> x) t.reports = EStateM.map f x t.reports := rfl
  unfold Sveltify.reporting
  rw [← ht.reports, h, hx]
  unfold EStateM.map
  cases x t.reports with
  | ok a reports => exact .ok rfl ⟨ht.stage, rfl⟩
  | error e reports => exact .error ⟨ht.stage, rfl⟩

end EndsAbreast

/-- A reporting step, as it runs. -/
theorem run_of_reporting {α : Type} {x : Reporting α} {t s : Trace} {a : α}
    (h : reporting x t = .ok a s) : x t.reports = .ok a s.reports := by
  unfold reporting at h
  cases hx : x t.reports with
  | ok a' reports =>
    rw [hx] at h
    cases h
    rfl
  | error e reports =>
    rw [hx] at h
    cases h

/-- A result that is changed to itself. -/
theorem eq_of_map_eq {α : Type} {x : Reporting α} {f : α → α} (h : x = f <$> x)
    {reports reports' : List Report} {a : α} (hrun : x reports = .ok a reports') : f a = a := by
  have hmap : (f <$> x) reports = EStateM.map f x reports := rfl
  unfold EStateM.map at hmap
  rw [← h, hrun] at hmap
  exact (EStateM.Result.ok.inj hmap).1.symm

/-! ### Whole runs -/

/-- Components that are printed alike but for the language end in such files. -/
theorem endsAbreast_emitStage {o o' : Options} {c c' : SvelteComponent}
    (h : withoutLanguage <$> c'.print o'.indentWidth = withoutLanguage <$> c.print o.indentWidth)
    {t t' : Trace} (ht : t.Abreast t') :
    EndsAbreast SameFile (emitStage o c t) (emitStage o' c' t') := by
  unfold emitStage
  refine .bind (.enter ht _) fun _ _ s s' _ _ ht => ?_
  cases hc : c.print o.indentWidth with
  | ok text =>
    cases hc' : c'.print o'.indentWidth with
    | ok text' =>
      rw [hc, hc'] at h
      refine .bind (.journalise ht _ _) fun _ _ s s' hrun _ hs => .ok ?_ hs
      exact (Except.ok.inj h).symm
    | error e =>
      rw [hc, hc'] at h
      cases h
  | error e =>
    cases hc' : c'.print o'.indentWidth with
    | ok text' =>
      rw [hc, hc'] at h
      cases h
    | error e' => exact .error ht

section Run

variable {o : Options} {i : Input} {m : Module}

/-- The files of a component without types. -/
theorem print_of_untyped {src : Source} {model : Model} (h : isUntyped model = true)
    (hplain : model.typescript = false) {indent : String} {reports reports' : List Report}
    {c : SvelteComponent} (hrun : toSvelte src model indent reports = .ok c reports')
    (width : Nat) :
    withoutLanguage <$> SvelteComponent.print width { c with typescript := true }
      = withoutLanguage <$> c.print width := by
  have same : { c with typescript := model.typescript } = c :=
    eq_of_map_eq (toSvelte_typescript model.typescript h) hrun
  rw [hplain] at same
  obtain ⟨hscript, hmodule⟩ := printsAlike_of_toSvelte h hrun
  have := print_typescript hscript hmodule width
  rwa [same] at this

/-- The stages run side by side. -/
theorem runStages_typescript (hm : i.module { o with typescript := false } = .ok m)
    (hm' : i.module { o with typescript := true } = .ok { m with dialect := .typescript })
    (huntyped : ∀ model reports,
      analyze m { o with typescript := false } [] = .ok model reports → isUntyped model = true) :
    EndsAbreast SameFile (runStages { o with typescript := false } i {})
      (runStages { o with typescript := true } i {}) := by
  have start : Trace.Abreast {} {} := ⟨rfl, rfl⟩
  simp only [runStages, readStage, analyzeStage, lowerStage, bind_assoc, pure_bind]
  rw [hm, hm']
  refine .bind (R := fun a b => a = m ∧ b = { m with dialect := .typescript })
    (.ok ⟨rfl, rfl⟩ start) ?_
  rintro m _ s₀ s₀' hrun ⟨rfl, rfl⟩ hs
  cases hrun
  refine .bind (.journalise hs _ _) fun _ _ s₁ s₁' hrun _ hs => ?_
  cases hrun
  refine .bind (.journalise hs _ _) fun _ _ s₁ s₁' hrun _ hs => ?_
  cases hrun
  refine .bind (.enter hs _) fun _ _ s₁ s₁' hrun _ hs => ?_
  cases hrun
  refine .bind (.lift hs (chooseComponent m o.sourceName)) ?_
  rintro _ choice s₁ s₁' hrun ⟨hchoice, rfl⟩ hs
  have hreports : s₁.reports = [] := by
    rw [hchoice] at hrun
    cases hrun
    rfl
  refine .bind (.journalise hs _ _) fun _ _ s₂ s₂' hrun _ hs => ?_
  cases hrun
  refine .bind (.reporting (f := fun model => { model with typescript := true }) hs ?_) ?_
  · exact congrFun
      (analyzeComponent_typescript m .typescript { o with typescript := false } true choice) _
  rintro model _ s₂ s₂' hrun rfl hs
  -- The run takes the analysis apart at the choice of the component; `huntyped` is about the whole.
  have hanalyze : analyze m { o with typescript := false } [] = .ok model s₂.reports := by
    have hcomponent := run_of_reporting hrun
    refine bind_ok_iff.2 ⟨choice, [], lift_ok_iff.2 ⟨hchoice, rfl⟩, ?_⟩
    rw [← hreports]
    exact hcomponent
  have hmodel := huntyped model _ hanalyze
  have hplain : { model with typescript := false } = model :=
    eq_of_map_eq (analyze_typescript m m.dialect { o with typescript := false } false) hanalyze
  refine .bind (.journalise hs _ _) fun _ _ s₃ s₃' hrun _ hs => ?_
  cases hrun
  refine .bind (.enter hs _) fun _ _ s₃ s₃' hrun _ hs => ?_
  cases hrun
  refine .bind (.reporting (f := fun c => { c with typescript := true }) hs ?_) ?_
  · exact congrFun (toSvelte_typescript true hmodel) _
  rintro c _ s₃ s₃' hrun rfl hs
  refine .bind (.journalise hs _ _) fun _ _ s₄ s₄' hrun' _ hs => ?_
  cases hrun'
  refine endsAbreast_emitStage (print_of_untyped hmodel ?_ (run_of_reporting hrun) _) hs
  rw [← hplain]

/-- The component is assembled alike, but for the note of its language. -/
theorem assembled_typescript (huntyped : ∀ model reports,
      analyze m { o with typescript := false } [] = .ok model reports → isUntyped model = true) :
    assembled { m with dialect := .typescript } { o with typescript := true } []
      = ((fun c => { c with typescript := true }) <$>
          assembled m { o with typescript := false }) [] := by
  have hanalyze : analyze { m with dialect := .typescript } { o with typescript := true } = _ :=
    analyze_typescript m .typescript { o with typescript := false } true
  unfold assembled
  rw [hanalyze]
  simp only [bind, EStateM.bind, Functor.map, EStateM.map]
  cases hrun : analyze m { o with typescript := false } [] with
  | ok model reports =>
    have hmodel := huntyped model reports hrun
    exact congrFun (toSvelte_typescript true hmodel) reports
  | error f reports => rfl

end Run

/-- Runs that end side by side make the same reports. -/
theorem EndsAbreast.runReports_eq {o o' : Options} {i : Input} {R : String → String → Prop}
    (h : EndsAbreast R (runStages o i {}) (runStages o' i {})) :
    runReports o' i = runReports o i := by
  unfold runReports
  generalize runStages o i {} = r at h
  generalize runStages o' i {} = r' at h
  cases h with
  | ok _ ht => exact ht.reports.symm
  | error ht =>
    dsimp only
    rw [ht.reports, ht.stage]

/-- **Without types the TypeScript option only adds the language.** For every input for which no
type is recorded, and all other options alike: either the module cannot be read, and neither run has
an output; or the models and the components of the two runs differ in the note of their language
only, the diagnostics are the same, and so are the outputs, once the language is taken out of the
opening tags of their scripts. If a stage fails or errors withhold the output, they do so in both
runs. -/
theorem typescript_adds_language (o : Options) (i : Input)
    (huntyped : ∀ m model reports, i.module { o with typescript := false } = .ok m →
      analyze m { o with typescript := false } [] = .ok model reports → isUntyped model = true) :
    let plain := convert { o with typescript := false } i
    let typed := convert { o with typescript := true } i
    ((∃ f f', i.module { o with typescript := false } = .error f ∧
        i.module { o with typescript := true } = .error f') ∧
      plain.output = none ∧ typed.output = none) ∨
    ∃ m, i.module { o with typescript := false } = .ok m ∧
      i.module { o with typescript := true } = .ok { m with dialect := .typescript } ∧
      analyze { m with dialect := .typescript } { o with typescript := true } []
        = ((fun model => { model with typescript := true }) <$>
            analyze m { o with typescript := false }) [] ∧
      assembled { m with dialect := .typescript } { o with typescript := true } []
        = ((fun c => { c with typescript := true }) <$>
            assembled m { o with typescript := false }) [] ∧
      typed.diagnostics = plain.diagnostics ∧
      typed.output.map withoutLanguage = plain.output.map withoutLanguage := by
  intro plain typed
  have hplain : plain.output = _ := convert_output { o with typescript := false } i
  have htyped : typed.output = _ := convert_output { o with typescript := true } i
  rcases module_typescript o i with ⟨f, f', hf, hf'⟩ | ⟨m, hm, hm'⟩
  · -- The module cannot be read: both runs fail in their first step.
    have fails : runStages { o with typescript := false } i {} = .error f {} := by
      unfold runStages readStage
      rw [hf]
      rfl
    have fails' : runStages { o with typescript := true } i {} = .error f' {} := by
      unfold runStages readStage
      rw [hf']
      rfl
    rw [fails] at hplain
    rw [fails'] at htyped
    exact .inl ⟨⟨f, f', hf, hf'⟩, hplain, htyped⟩
  · have untyped (model : Model) (reports : List Report) := huntyped m model reports hm
    have abreast := runStages_typescript hm hm' untyped
    have reports := abreast.runReports_eq
    refine .inr ⟨m, hm, hm', ?_, assembled_typescript untyped, ?_, ?_⟩
    · exact congrFun (analyze_typescript m .typescript { o with typescript := false } true) []
    · rw [convert_diagnostics, convert_diagnostics, reports]
      rfl
    · rw [hplain, htyped, reports]
      generalize runStages { o with typescript := false } i {} = r at abreast
      generalize runStages { o with typescript := true } i {} = r' at abreast
      cases abreast with
      | error _ => rfl
      | ok same _ =>
        -- Both outputs are withheld in strict mode, if there is an error among the reports.
        have collector : collectorFor { o with typescript := true }
            = collectorFor { o with typescript := false } := rfl
        dsimp only
        rw [collector]
        split
        · rfl
        · exact congrArg some same.symm

section Sample

open Node

/-- A component with a cell that its markup shows. -/
def cellModule : Module :=
  Assembly.appModule
    "function App() \x7b const [n, setN] = useState(0); return <p>\x7bn\x7d</p>; \x7d" [] 15
    [plain "lexical_declaration" 17 47 [plain "variable_declarator" 23 46
      [plain "array_pattern" 23 32 [plain "identifier" 24 25 [], plain "identifier" 27 31 []]
        (some "name"),
       plain "call_expression" 35 46
        [plain "identifier" 35 43 [] (some "function"),
         plain "arguments" 43 46 [plain "number" 44 45 []] (some "arguments")] (some "value")]],
     plain "return_statement" 48 66
      [plain "jsx_element" 55 65
        [plain "jsx_opening_element" 55 58 [plain "identifier" 56 57 [] (some "name")]
          (some "open_tag"),
         plain "jsx_expression" 58 61 [plain "identifier" 59 60 []],
         plain "jsx_closing_element" 61 65 [plain "identifier" 63 64 [] (some "name")]
          (some "close_tag")]]]

/-- The source of the component with its tree. -/
def cellInput : Input := { source := cellModule.source, root := cellModule.root }

/-- One cell of state, in both languages. -/
theorem typescript_adds_language_of_cell :
    (∃ model reports, cellInput.module {} = .ok cellModule ∧
      analyze cellModule {} [] = .ok model reports ∧ isUntyped model = true) ∧
    (convert { typescript := true } cellInput).diagnostics = (convert {} cellInput).diagnostics ∧
    (convert { typescript := true } cellInput).output.map withoutLanguage
      = (convert {} cellInput).output.map withoutLanguage ∧
    (convert { typescript := true } cellInput).output = some
      "<script lang=\"ts\">\n  let n = $state(0);\n</script>\n\n<p>\x7bn\x7d</p>\n" := by
  have sound :
      (Module.defect? cellInput.source cellInput.root cellInput.hasError).isNone = true := by
    decide +kernel
  have hmodule : cellInput.module {} = .ok cellModule := by
    unfold Input.module Module.read
    rw [Option.isNone_iff_eq_none.1 sound]
    rfl
  have test : endsIn (analyze cellModule {}) [] (fun model _ => isUntyped model) = true := by
    decide +kernel
  obtain ⟨model, reports, hrun, hmodel⟩ := exists_ok_of_endsIn test
  have both := typescript_adds_language {} cellInput fun m' model' reports' hm' hrun' => by
    cases hm'.symm.trans hmodule
    cases hrun.symm.trans hrun'
    exact hmodel
  rcases both with ⟨⟨f, f', hf, -⟩, -⟩ | ⟨m, -, -, -, -, diagnostics, outputs⟩
  · cases hmodule.symm.trans hf
  · exact ⟨⟨model, reports, hmodule, hrun, hmodel⟩, diagnostics, outputs, by decide +kernel⟩

end Sample

end Sveltify
