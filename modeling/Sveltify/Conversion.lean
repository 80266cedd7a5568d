import Sveltify.Analysis.Component
import Sveltify.Assembly.Component
import Sveltify.Journal
import Sveltify.Svelte.Component.Printer

namespace Sveltify

open Analysis Assembly

/-!
# Conversion

A module is read, its component analysed, the Svelte component assembled, and that printed.

* `Running`: a run through the stages, with its reports and its journal;
* `runStages`: all stages one after the other;
* `convert`: the outcome of a run. In strict mode a run with errors has no output.
-/

/-- A fact about a run. -/
inductive Fact where
  | text (s : String)
  | count (n : Nat)
deriving Repr, DecidableEq

/-- How far a run has come. -/
structure Trace where
  stage : Stage := .parse
  reports : List Report := []
  journal : List (JournalEntry Fact) := []
deriving Repr

/-- A run through the stages. -/
abbrev Running := EStateM Failure Trace

/-- Add an entry to the journal. -/
def journalise (entry : JournalEntry Fact) : Running Unit :=
  modify fun t => { t with journal := t.journal ++ [entry] }

/-- Go on to a stage. -/
def enter (stage : Stage) : Running Unit := modify fun t => { t with stage }

/-- The entry for an event of a stage of a run. -/
def eventOf (o : Options) (stage : Stage) (event : String) (extras : List (String × Fact)) :
    JournalEntry Fact :=
  stageEntry .text stage.text event (some o.sourceName) extras

/-- The entry that a module has been read. -/
def parsedEntry (m : Module) : JournalEntry Fact where
  name := "debug"
  message :=
    let count := m.statements.length
    s!"Parsed {m.source.name} with {m.dialect.grammar} grammar ({count} top-level statements)"

/-- A step that reports, as part of a run. -/
def reporting {α : Type} (step : Reporting α) : Running α := fun t =>
  match step t.reports with
  | .ok a reports => .ok a { t with reports }
  | .error e reports => .error e { t with reports }

/-- What is converted: a source with its syntax tree. -/
structure Input where
  source : Source
  root : Node
  /-- Did the reader of the source find a fault? -/
  hasError : Bool := false
deriving Repr

/-- Read the module of an input. -/
def Input.module (i : Input) (o : Options) : Except Failure Module :=
  match Module.read i.source i.root i.hasError o.typescript with
  | .ok m => .ok m
  | .error r => .error (.refused r)

/-- The first stage reads the module. -/
def readStage (o : Options) (i : Input) : Running Module := do
  let m ← i.module o
  journalise (parsedEntry m)
  journalise (eventOf o .parse "complete" [])
  return m

/-- The second stage chooses the component of the module and analyses it. -/
def analyzeStage (o : Options) (m : Module) : Running Component.Model := do
  enter .analyze
  let choice ← chooseComponent m o.sourceName
  journalise (eventOf o .analyze "component"
    [("name", .text choice.chosen.name), ("candidates", .count choice.candidates.length)])
  let model ← reporting (analyzeComponent m o choice)
  journalise (eventOf o .analyze "model"
    [("state", .count model.state.size), ("derived", .count model.derived.size),
     ("effects", .count model.effects.length), ("snippets", .count model.snippets.length)])
  return model

/-- The third stage assembles the Svelte component. -/
def lowerStage (o : Options) (m : Module) (model : Component.Model) :
    Running Svelte.SvelteComponent := do
  enter .lower
  let component ← reporting (toSvelte m.source model o.indent)
  journalise (eventOf o .lower "ir"
    [("script", .count component.script.length),
     ("module_script", .count component.moduleScript.length),
     ("template", .count component.template.length)])
  return component

/-- The last stage prints it. -/
def emitStage (o : Options) (component : Svelte.SvelteComponent) : Running String := do
  enter .emit
  match component.print o.indentWidth with
  | .ok text =>
    journalise (eventOf o .emit "complete" [("length", .count text.length)])
    return text
  | .error _ => throw .incomplete

/-- All stages: from a source with its syntax tree to the file of a Svelte component. -/
def runStages (o : Options) (i : Input) : Running String := do
  let m ← readStage o i
  let model ← analyzeStage o m
  let component ← lowerStage o m model
  emitStage o component

/-- What a conversion yields. -/
structure Outcome where
  output : Option String
  diagnostics : List Diagnostic
  journal : List (JournalEntry Fact)
deriving Repr

/-- The kinds of refusal that end a run in good order. -/
def isExpected (kind : RefusalKind) : Bool :=
  kind == .malformed || kind == .unsupported || kind == .noComponent

/-- The refusal that ends a run in good order. -/
def expected? : Failure → Option Refusal
  | .refused r => if isExpected r.kind then some r else none
  | .incomplete => none

/-- The last report of a run that failed in a stage. -/
def failureReport (stage : Stage) (f : Failure) : Report :=
  match expected? f with
  | some r => r.report stage .error
  | none =>
    { severity := .error, stage, code := Code.internalError, message := "internal error" }

/-- The last entry in the journal of a run that failed in a stage. -/
def failureEntry (o : Options) (stage : Stage) (f : Failure) : JournalEntry Fact :=
  match expected? f with
  | some r => eventOf o stage "failed" [("code", .text (r.kind.code.getD ""))]
  | none => { name := "exception", message := s!"Internal error while converting {o.sourceName}" }

/-- The collector of a run. -/
def collectorFor (o : Options) : Collector :=
  { strict := o.strictMode, sourceName := some o.sourceName }

/-- Convert a source with its syntax tree. -/
def convert (o : Options) (i : Input) : Outcome :=
  match runStages o i {} with
  | .error f t =>
    let collected := (collectorFor o).recordAll (t.reports ++ [failureReport t.stage f])
    { output := none
      diagnostics := collected.diagnostics
      journal := t.journal ++ [failureEntry o t.stage f] }
  | .ok text t =>
    let collected := (collectorFor o).recordAll t.reports
    -- In strict mode the collector has made errors of the warnings.
    if o.strictMode && collected.anyError then
      { output := none
        diagnostics := collected.diagnostics
        journal := t.journal ++
          [eventOf o .emit "rejected" [("errors", .count (collected.countOf .error))]] }
    else { output := some text, diagnostics := collected.diagnostics, journal := t.journal }

end Sveltify
