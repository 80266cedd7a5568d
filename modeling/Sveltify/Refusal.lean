namespace Sveltify

/-!
# Refusals

Why a conversion stops, and how the reason is worded.

* `Place`: where something was found, as far as that is known;
* `Refusal`: a construct or an input that is turned down, with the place and the wording;
* `Failure`: a refusal, or a syntax tree that lacks a part its kind promises.
-/

/-- A place in a source; each part may be unknown. -/
structure Place where
  path : Option String := none
  line : Option Nat := none
  column : Option Nat := none
deriving Repr, DecidableEq

namespace Place

/-- The name used for a source without one. -/
def anonymous : String := "<input>"

/-- Is the line known? -/
def isKnown (p : Place) : Bool := p.line.isSome

/-- The place in words: path, line and column as far as they are known. -/
def text (p : Place) : String :=
  let path := match p.path with
    | none | some "" => anonymous
    | some path => path
  match p.line, p.column with
  | none, _ => path
  | some line, none => s!"{path}:{line}"
  | some line, some column => s!"{path}:{line}:{column}"

end Place

/-- The kinds of refusal. -/
inductive RefusalKind where
  /-- No kind of its own. -/
  | general
  /-- The source is not a well-formed module. -/
  | malformed
  /-- A construct without counterpart in the target. -/
  | unsupported
  /-- The module holds no component. -/
  | noComponent
  /-- A list without keys. -/
  | missingKey
  /-- A construct with more than one reading. -/
  | ambiguous
deriving Repr, DecidableEq

/-- The code that stands for a kind in messages. -/
def RefusalKind.code : RefusalKind → Option String
  | .general => none
  | .malformed => some "parse-error"
  | .unsupported => some "unsupported-pattern"
  | .noComponent => some "no-component"
  | .missingKey => some "missing-key"
  | .ambiguous => some "analysis-ambiguity"

/-- A reason to stop, with its place and, if there are any, the construct at fault and a hint. -/
structure Refusal where
  kind : RefusalKind
  message : String
  place : Place := {}
  construct : Option String := none
  hint : Option String := none
deriving Repr, DecidableEq

/-- An optional text that is there and not empty. -/
def nonEmpty? : Option String → Option String
  | some "" => none
  | s => s

/-- The refusal in words: one line, and the hint on a line of its own. -/
def Refusal.text (r : Refusal) : String :=
  let code := r.kind.code.getD "error"
  let line := s!"{r.place.text}: error[{code}]: {r.message}"
  match nonEmpty? r.hint with
  | some hint => s!"{line}\n  hint: {hint}"
  | none => line

/-- What ends a stage early. -/
inductive Failure where
  /-- The input is turned down for a reason. -/
  | refused (r : Refusal)
  /-- A syntax node lacks a part that its kind promises. -/
  | incomplete
deriving Repr, DecidableEq

/-- The value that has to be there. -/
def need {α : Type} {m : Type → Type} [Monad m] [MonadExcept Failure m] : Option α → m α
  | some a => pure a
  | none => throw .incomplete

/-- A pure computation that may fail, as a step of a stage with a state. -/
instance {σ : Type} : MonadLift (Except Failure) (EStateM Failure σ) where
  monadLift
    | .ok a => pure a
    | .error e => throw e

end Sveltify
