import Sveltify.Svelte.Component
import Sveltify.Svelte.Template.Printer
import Sveltify.Text.Dedent

namespace Sveltify.Svelte

open Text

/-!
# Printing components

* `SvelteComponent.print`: the file that holds a component. Its sections are the module script,
  the instance script, the markup and the style; those that are empty are left out.
-/

/-- A script in its tags. -/
def scriptTag (indent : String) (typescript isModule : Bool) (body : List String) : String :=
  let forModule := if isModule then " module" else ""
  let language := if typescript then " lang=\"ts\"" else ""
  unlines (s!"<script{forModule}{language}>" :: padLines indent body ++ ["</script>"])

/-- A style in its tags. The first line is set to the margin on its own, since it stood behind an
opening quotation mark. -/
def styleBlock (indent : String) (css : String) : String :=
  let body :=
    match lines css with
    | first :: rest => strip first :: dedent rest
    | [] => []
  unlines ("<style>" :: padLines indent body ++ ["</style>"])

namespace SvelteComponent

/-- The statements that import what the component needs. -/
def importLines (c : SvelteComponent) : List String :=
  let framework :=
    if c.svelteImports.isEmpty then []
    else
      let names := ", ".intercalate c.svelteImports
      [s!"import \x7b {names} \x7d from 'svelte';"]
  framework ++ c.imports.flatMap lines

/-- The lines of the instance script; an empty line follows the imports. -/
def instanceScript (indent : String) (c : SvelteComponent) : Except PrintError (List String) := do
  let body ← scriptLines indent c.typescript c.script
  let gap := if c.importLines.isEmpty || body.isEmpty then [] else [""]
  return c.importLines ++ gap ++ body

/-- The sections of the file. -/
def sections (indent : String) (c : SvelteComponent) : Except PrintError (List String) := do
  let moduleBody ← scriptLines indent c.typescript c.moduleScript
  let instanceBody ← c.instanceScript indent
  let markup ← templateLines indent c.template
  return (if c.moduleScript.isEmpty then [] else [scriptTag indent c.typescript true moduleBody])
    ++ (if instanceBody.isEmpty then [] else [scriptTag indent c.typescript false instanceBody])
    ++ (if markup.isEmpty then [] else [unlines markup])
    ++ (nonEmpty? c.style).toList.map (styleBlock indent)

/-- The file that holds the component, with `width` spaces for each level. -/
def print (width : Nat) (c : SvelteComponent) : Except PrintError String := do
  let indent := String.ofList (List.replicate width ' ')
  return "\n\n".intercalate (← c.sections indent) ++ "\n"

end SvelteComponent

end Sveltify.Svelte
