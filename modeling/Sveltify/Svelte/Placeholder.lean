namespace Sveltify.Svelte

/-!
# Placeholders

* `Placeholder`: what stands in the output for a construct that has no counterpart;
* `PrintError`: why something cannot be printed.
-/

/-- A construct that is left to the reader: the mark of its diagnostic, the reason, and its
source. -/
structure Placeholder where
  marker : String
  reason : String
  source : String
deriving Repr, DecidableEq

/-- Something that has no place where it stands. -/
inductive PrintError where
  | unknownScriptNode (kind : String)
  | unknownTemplateNode (kind : String)
  | unknownAttributeKind (kind : String)
deriving Repr, DecidableEq

/-- The error in words. -/
def PrintError.message : PrintError → String
  | .unknownScriptNode kind => s!"unknown script node {kind}"
  | .unknownTemplateNode kind => s!"unknown template node {kind}"
  | .unknownAttributeKind kind => s!"unknown attribute kind {kind}"

end Sveltify.Svelte
