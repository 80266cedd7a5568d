import Sveltify.Expression.Convert
import Sveltify.Svelte.Placeholder

namespace Sveltify.Assembly

open Component Expression Svelte

/-!
# Assembling a Svelte component: the common ground

The parts of a Svelte component are assembled from the model of a component one after the other.
What they share is kept in `Progress`.

* `Assembling`: a step of the assembly. What has been reported stays reported when a step fails;
* `converted`, `convertedText`, `expressionText`: converted source text. A setter used as a value is
  remarked on once, however often the text around it is converted;
* `leave`: put a placeholder for a construct, together with the error that it refers to;
* `orElse`: go on in another way if a construct turns out to have no counterpart.
-/

/-- What the parts of a component share while it is assembled. -/
structure Progress where
  /-- All reports of the run so far, in order. -/
  reports : List Report := []
  /-- The spans of the setters used as values that have been remarked on. -/
  remarked : List (Nat × Nat) := []
  /-- The names needed from the framework. -/
  svelteImports : List String := []
  /-- The components that the markup uses. -/
  componentTags : List String := []
deriving Repr

/-- A step of the assembly. -/
abbrev Assembling := EStateM Failure Progress

variable (src : Source) (model : Model)

/-! ### Reports -/

/-- Report something. -/
def report (r : Report) : Assembling Unit :=
  modify fun p => { p with reports := p.reports ++ [r] }

/-- A remark about a node. -/
def remarkOn (code message : String) (n : Node) (construct : String) : Report :=
  let position := src.startOf n
  { severity := .info, stage := .lower, code, message
    line := some position.line, column := some position.column, construct := some construct }

/-- How far the assembly has come after a conversion: its remarks are reported. -/
def Progress.after (p : Progress) (m : Memory) : Progress :=
  { p with
    reports := p.reports ++ m.remarks.map (SetterUse.report src)
    remarked := m.remarked }

/-- A conversion as a step of the assembly. -/
def withRemarks {α : Type} (c : Conversion α) : Assembling α := fun p =>
  -- The conversion goes on from what has been remarked on before it.
  match c { remarked := p.remarked } with
  | .ok a m => .ok a (p.after src m)
  -- The remarks of a conversion that fails are made all the same.
  | .error e m => .error e (p.after src m)

/-- Need names from the framework. -/
def useImports (names : List String) : Assembling Unit :=
  modify fun p => { p with svelteImports := p.svelteImports ++ names }

/-! ### Converted text -/

/-- The converted text of a node. -/
def converted (n : Node) : Assembling String := withRemarks src (convert src model [] false n)

/-- The converted text of a node, moved to the left margin. -/
def convertedText (isStatement : Bool) (n : Node) : Assembling String := do
  return Text.unlines (← withRemarks src (convertLines src model isStatement n))

/-- The converted text of an expression in markup, without parentheses around it. -/
def expressionText (n : Node) : Assembling String := converted src model n.withoutParens

/-- The converted text of an expression that has to be there. -/
def expressionText? (n : Option Node) : Assembling String := do
  expressionText src model (← need n)

/-! ### Placeholders -/

/-- The error about a construct that is left as a placeholder. -/
def leftBehind (n : Node) (reason : String) (construct : Option String) : Report :=
  let position := src.startOf n
  { severity := .error, stage := .lower, code := Code.unsupportedPattern
    message := s!"{reason}; left as a TODO"
    line := some position.line, column := some position.column, construct }

/-- The mark of the placeholder that belongs to the diagnostic with number `id`. -/
def todo (id : Nat) : String := s!"TODO({markerOf id})"

/-- Leave a construct behind: report it, and keep its source after the text `before`. -/
def leave (n : Node) (reason : String) (construct : Option String) (before : String) :
    Assembling Placeholder := do
  report (leftBehind src n reason construct)
  return {
    -- The error has just been added, so its number is that of the last report.
    marker := todo (← get).reports.length
    reason
    source := outdented src (before ++ src.text n) n }

/-- The refusal of a construct that has no counterpart. -/
def refusedConstruct? : Failure → Option Refusal
  | .refused r => if r.kind = .unsupported then some r else none
  | .incomplete => none

/-- Do the step; if it meets a construct without counterpart, do `handle` with the refusal. -/
def orElse {α : Type} (step : Assembling α) (handle : Refusal → Assembling α) : Assembling α :=
  tryCatch step fun e =>
    match refusedConstruct? e with
    | some r => handle r
    | none => throw e

end Sveltify.Assembly
