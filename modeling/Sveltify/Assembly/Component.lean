import Sveltify.Analysis.Component
import Sveltify.Assembly.Markup
import Sveltify.Assembly.ModuleItems
import Sveltify.Assembly.Props
import Sveltify.Svelte.Component

namespace Sveltify.Assembly

open Analysis Component Svelte Text

/-!
# Assembling a Svelte component

* `assembleComponent`: the Svelte component for a model. Types come first in its script, then the
  props, then all declarations in source order, and at the end the contexts that it provides;
* `toSvelte`: the same with the reports that a run has made so far.
-/

/-- The Svelte component for a model. -/
def assembleComponent (src : Source) (model : Model) (indent : String) :
    Assembling SvelteComponent := do
  let props ← propsDeclaration src model
  let groups ← declarationGroups src model indent
  let provisions ← provisionNodes src model
  let snippets ← model.snippets.mapM (snippetMarkup src model)
  let markup ← optionalMarkup src model model.renderTree
  -- Imports come after the markup, which says what components are used.
  let parts ← moduleParts src model
  let ordered := inSourceOrder (parts.declarations ++ groups)
  return {
    name := model.name
    typescript := model.typescript
    svelteImports := sortedNames (← get).svelteImports
    imports := parts.imports
    moduleScript := parts.moduleScript
    script := parts.types ++ props.toList.map .props ++ ordered.flatMap (·.nodes) ++ provisions
    template := snippets ++ markup
    style := if model.styles.isEmpty then none else some ("\n\n".intercalate model.styles) }

/-- The Svelte component for a model, after the reports that have been made so far. -/
def toSvelte (src : Source) (model : Model) (indent : String) : Reporting SvelteComponent :=
  fun reports =>
    match assembleComponent src model indent { reports } with
    | .ok c p => .ok c p.reports
    | .error e p => .error e p.reports

end Sveltify.Assembly
