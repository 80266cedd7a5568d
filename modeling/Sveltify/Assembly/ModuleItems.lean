import Sveltify.Assembly.Declarations
import Sveltify.Text.Path

namespace Sveltify.Assembly

open Component Expression Svelte Text

/-!
# Statements around a component

* `importText?`: an import statement. One that brings in only contexts is dropped, and one that
  brings in a component of the project points at the converted file;
* `ModuleParts`: the statements of a module by where they go;
* `moduleParts`: the statements of a module, converted.
-/

variable (src : Source) (model : Model)

/-! ### Imports -/

/-- The extensions of files that hold components. -/
def componentExtensions : List String := [".jsx", ".tsx", ".js", ".ts"]

/-- Where the file of a component of the project is found after conversion. -/
def convertedPath? (path : String) : Option String :=
  -- Only a path that starts with a dot leads to a file of the project.
  if path.toList.head? == some '.' then
    let (stem, extension) := splitExtension path
    if extension.isEmpty then some (path ++ ".svelte")
    else if componentExtensions.contains extension then some (stem ++ ".svelte")
    else none
  else none

/-- The name under which an import statement brings in the default export. -/
def defaultImport? (statement : Node) : Option Node :=
  (statement.childOfKind? ["import_clause"]).bind fun clause =>
    clause.namedChildren.find? (·.kind == "identifier")

/-- The node that names the imported module, and the default import, if that is a component that
the markup uses. -/
def componentImport? (componentTags : List String) (statement : Node) : Option (Node × Node) :=
  match statement.field? "source", defaultImport? statement with
  | some path, some name =>
    if componentTags.contains (src.text name) then some (path, name) else none
  | _, _ => none

/-- The text of an import statement. -/
def importText? (contextKeys : List String) (item : ModuleItem) : Assembling (Option String) := do
  let statement := item.node
  if !item.names.isEmpty && item.names.all contextKeys.contains then
    let names := ", ".intercalate item.names
    report (remarkOn src Code.importAdjusted
      s!"import of {names} removed; Svelte contexts are looked up by key" statement "import")
    return none
  let unchanged := outdented src (src.text statement) statement
  match componentImport? src (← get).componentTags statement with
  | none => return some unchanged
  | some (literal, name) =>
    let text := src.text literal
    let quote ← need text.toList.head?
    let path := withoutEnds text
    match convertedPath? path with
    | none => return some unchanged
    | some target =>
      report (remarkOn src Code.importAdjusted
        s!"component import '{path}' now points at '{target}'" statement (src.text name))
      -- Only the path is replaced, between quotes like those in the source.
      let head := src.slice statement.start literal.start
      let tail := src.slice literal.stop statement.stop
      return some (outdented src s!"{head}{quote}{target}{quote}{tail}" statement)

/-! ### All statements -/

/-- The statements of a module by where they go. -/
structure ModuleParts where
  imports : List String := []
  types : List ScriptNode := []
  moduleScript : List ScriptNode := []
  declarations : List Group := []

/-- The entry for a statement that is no import. -/
def statementGroup (item : ModuleItem) : Assembling Group :=
  groupFor src item.node "" do return [.raw (← convertedText src model true item.node)]

/-- Add a statement of a module. -/
def addItem (contextKeys : List String) (parts : ModuleParts) (item : ModuleItem) :
    Assembling ModuleParts := do
  match item.kind with
  | .importing =>
    let text ← importText? src contextKeys item
    return { parts with imports := parts.imports ++ text.toList }
  | .typing =>
    let group ← statementGroup src model item
    return { parts with types := parts.types ++ group.nodes }
  | .exported =>
    let group ← statementGroup src model item
    return { parts with moduleScript := parts.moduleScript ++ group.nodes }
  | .declaration =>
    let group ← statementGroup src model item
    return { parts with declarations := parts.declarations ++ [group] }

/-- The statements of the module around a component. -/
def moduleParts : Assembling ModuleParts :=
  model.moduleItems.foldlM (addItem src model (model.contexts.map (·.key))) {}

end Sveltify.Assembly
