import Sveltify.Refusal

namespace Sveltify

/-!
# Diagnostics

What the stages of a conversion report, and how the reports are collected.

* `Report`: a remark of a stage, before it is numbered;
* `Diagnostic`: a numbered report with its final severity;
* `Collector`: the diagnostics so far, in order; a strict collector records every warning as an
  error.
-/

/-- How grave a report is. -/
inductive Severity where
  | info
  | warning
  | error
deriving Repr, DecidableEq

/-- The word for a severity. -/
def Severity.text : Severity → String
  | .info => "info"
  | .warning => "warning"
  | .error => "error"

/-- Severity under a strict collector: warnings count as errors. -/
def Severity.escalate : Severity → Severity
  | .warning => .error
  | s => s

/-- The stages of a conversion. -/
inductive Stage where
  | parse
  | analyze
  | lower
  | emit
deriving Repr, DecidableEq

/-- The word for a stage. -/
def Stage.text : Stage → String
  | .parse => "parse"
  | .analyze => "analyze"
  | .lower => "lower"
  | .emit => "emit"

/-! ### The codes of reports -/

namespace Code

def unsupportedPattern : String := "unsupported-pattern"
def staleDependency : String := "stale-dependency"
def missingKey : String := "missing-key"
def analysisAmbiguity : String := "analysis-ambiguity"
def dynamicHookArgument : String := "dynamic-hook-argument"
def unresolvedReference : String := "unresolved-reference"
def duplicateBinding : String := "duplicate-binding"
def extraComponent : String := "extra-component"
def memoErased : String := "memo-erased"
def effectEveryUpdate : String := "effect-every-update"
def setterAsValue : String := "setter-as-value"
def contextProviderHoisted : String := "context-provider-hoisted"
def contextValueSnapshot : String := "context-value-snapshot"
def hookErased : String := "hook-erased"
def importAdjusted : String := "import-rewritten"
def internalError : String := "internal-error"

end Code

/-- A remark of a stage. -/
structure Report where
  severity : Severity
  stage : Stage
  code : String
  message : String
  line : Option Nat := none
  column : Option Nat := none
  construct : Option String := none
deriving Repr, DecidableEq

/-- The report that a refusal leaves behind in the given stage. -/
def Refusal.report (r : Refusal) (stage : Stage) (severity : Severity) : Report where
  severity := severity
  stage := stage
  code := r.kind.code.getD Code.internalError
  message :=
    match nonEmpty? r.hint with
    | some hint => s!"{r.message}; {hint}"
    | none => r.message
  line := r.place.line
  column := r.place.column
  construct := r.construct

/-- A numbered report. -/
structure Diagnostic where
  /-- Its place among the diagnostics of a run, counted from one. -/
  id : Nat
  severity : Severity
  stage : Stage
  code : String
  message : String
  place : Place
  construct : Option String
deriving Repr, DecidableEq

/-- The mark by which output refers to the diagnostic with number `id`. -/
def markerOf (id : Nat) : String := s!"r2s#{id}"

namespace Diagnostic

/-- The mark by which output refers to the diagnostic. -/
def marker (d : Diagnostic) : String := markerOf d.id

/-- The diagnostic in words. -/
def text (d : Diagnostic) : String :=
  let place := match d.place.line, d.place.column with
    | none, _ => ""
    | some line, none => s!"line {line}: "
    | some line, some column => s!"line {line}:{column}: "
  let construct := match nonEmpty? d.construct with
    | some c => s!"`{c}` "
    | none => ""
  s!"{place}{d.severity.text}: {construct}{d.message} [{d.code}]"

end Diagnostic

/-- The diagnostics of a run, in order. -/
structure Collector where
  /-- Are warnings recorded as errors? -/
  strict : Bool := false
  /-- The name of the source, for the places of the diagnostics. -/
  sourceName : Option String := none
  diagnostics : List Diagnostic := []
deriving Repr, DecidableEq

namespace Collector

/-- The diagnostic that a report becomes when it is recorded next. -/
def next (c : Collector) (r : Report) : Diagnostic where
  id := c.diagnostics.length + 1
  severity := if c.strict then r.severity.escalate else r.severity
  stage := r.stage
  code := r.code
  message := r.message
  place := { path := c.sourceName, line := r.line, column := r.column }
  construct := r.construct

/-- Record a report. -/
def record (c : Collector) (r : Report) : Collector :=
  { c with diagnostics := c.diagnostics ++ [c.next r] }

/-- Record reports in order. -/
def recordAll (c : Collector) (rs : List Report) : Collector := rs.foldl record c

/-- Is one of the diagnostics an error? -/
def anyError (c : Collector) : Bool := c.diagnostics.any (·.severity == .error)

/-- The number of diagnostics of a severity. -/
def countOf (c : Collector) (s : Severity) : Nat := c.diagnostics.countP (·.severity == s)

@[simp] theorem strict_record (c : Collector) (r : Report) : (c.record r).strict = c.strict := rfl

@[simp] theorem recordAll_nil (c : Collector) : c.recordAll [] = c := rfl

@[simp] theorem recordAll_cons (c : Collector) (r : Report) (rs : List Report) :
    c.recordAll (r :: rs) = (c.record r).recordAll rs := rfl

end Collector

end Sveltify
