import Sveltify.Svelte.Script
import Sveltify.Svelte.Template

namespace Sveltify.Svelte

/-!
# Svelte components

* `SvelteComponent`: everything that one file of output holds.
-/

/-- A Svelte component: its scripts, its markup and its style. -/
structure SvelteComponent where
  name : String
  typescript : Bool := false
  /-- The names imported from the framework. -/
  svelteImports : List String := []
  /-- The import statements of the module. -/
  imports : List String := []
  /-- What the module does once. -/
  moduleScript : List ScriptNode := []
  /-- What each instance does. -/
  script : List ScriptNode := []
  template : List TemplateNode := []
  style : Option String := none
deriving Repr

end Sveltify.Svelte
