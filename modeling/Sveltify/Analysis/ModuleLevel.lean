import Sveltify.Component.Model

namespace Sveltify.Analysis

open Text Scope Component

/-!
# The top level of a module

* `ModuleLevel`: the statements that are kept, the contexts, and the names of a module;
* `classifyStatement`: what one top-level statement adds to them;
* `readTopLevel`: all statements that are neither the component's own nor another component's.
-/

/-- What the top level of a module declares. -/
structure ModuleLevel where
  items : List ModuleItem := []
  contexts : Table ContextDefinition := ∅
  names : List String := []
deriving Repr

instance : Inhabited ModuleLevel := ⟨{}⟩

variable (src : Source)

/-- The directives that a module may start with. -/
def directives : List String := ["use client", "use server", "use strict"]

/-- Is the statement a directive? -/
def isDirective (statement : Node) : Bool :=
  statement.kind == "expression_statement"
    && statement.firstNamed?.any fun e =>
      e.kind == "string" && directives.contains (unquote (src.text e))

/-- Is the node a declaration of a type? -/
def isTypeStatement (n : Node) : Bool :=
  n.kind == "type_alias_declaration" || n.kind == "interface_declaration"

/-- The context that a declarator creates, if it does. -/
def definedContext? (declarator : Node) : Except Failure (Option ContextDefinition) := do
  let hook ← Hook.match? src (declarator.field? "value")
  match hook, declarator.field? "name" with
  | some hook, some name =>
    if hook.kind == .createContext && name.kind == "identifier" then
      return some { key := src.text name, node := declarator, defaultValue := hook.argument? 0 }
    else return none
  | _, _ => return none

/-- The contexts that the declarators of a declaration create, and whether there are declarators
and all of them do. -/
def definedContexts (declaration : Node) : Except Failure (List ContextDefinition × Bool) := do
  let declarators := declaration.namedChildren.filter (·.kind == "variable_declarator")
  let found := (← declarators.mapM (definedContext? src)).filterMap id
  return (found, !declarators.isEmpty && found.length == declarators.length)

/-- Add contexts to the top level. -/
def ModuleLevel.addContexts (l : ModuleLevel) (found : List ContextDefinition) : ModuleLevel :=
  { l with
    contexts := found.foldl (fun t d => t.insert d.key d) l.contexts
    names := l.names ++ found.map (·.key) }

/-- Keep a statement. -/
def ModuleLevel.addItem (l : ModuleLevel) (kind : ModuleItemKind) (statement : Node)
    (names : List String) : ModuleLevel :=
  { l with items := l.items ++ [{ kind, node := statement, names }], names := l.names ++ names }

/-- Add what one top-level statement declares. -/
def classifyStatement (l : ModuleLevel) (statement : Node) : Except Failure ModuleLevel :=
  if statement.kind == "import_statement" then
    if importsReact src statement then .ok l
    else .ok (l.addItem .importing statement (statementNames src statement))
  else if isDirective src statement then .ok l
  else
    let isExported := statement.kind == "export_statement"
    if isExported && statement.hasToken "default" then .ok l
    else
      match if isExported then statement.field? "declaration" else some statement with
      | none => .ok (l.addItem .exported statement [])
      | some declaration => do
        let (found, isAll) ←
          if isVariableDeclaration declaration then definedContexts src declaration
          else pure ([], false)
        let l := l.addContexts found
        -- A declaration of nothing but contexts is not needed any more.
        if isAll then return l
        else
          let kind : ModuleItemKind :=
            if isExported then .exported
            else if isTypeStatement declaration then .typing
            else .declaration
          return l.addItem kind statement (statementNames src statement)

/-- The top level of a module around its chosen component. -/
def readTopLevel (m : Module) (chosen : Candidate) (candidates : List Candidate) :
    Except Failure ModuleLevel := do
  let consumed ← ownStatements m.source m.statements chosen
  let skipped := consumed ++ candidates.map (·.statement)
  let kept := m.statements.filter fun s => !skipped.any (·.same s)
  kept.foldlM (classifyStatement m.source) { names := candidates.map (·.name) }

end Sveltify.Analysis
