import Sveltify.Hook
import Sveltify.Scope.Declaration
import Sveltify.Syntax.Module

namespace Sveltify.Component

open Text Scope

/-!
# Components of a module

A component is a function with a capitalised name that holds markup, declared at the top level of
a module or exported from it, perhaps through the wrappers `memo` and `forwardRef`.

* `Candidate`: a function that looks like a component;
* `innerFunction`: the function inside the wrappers, and their names;
* `componentsOf`: the candidates of a module in the order of the source;
* `select?`: the one to convert, the default export or else the first;
* `ownStatements`: the statements that belong to a candidate.
-/

/-- A function that looks like a component. -/
structure Candidate where
  name : String
  function : Node
  /-- The top-level statement that declares it. -/
  statement : Node
  wrappers : List String
  isDefaultExport : Bool
  typeText : Option String
deriving Repr

/-- Is the candidate wrapped in `memo`? -/
def Candidate.isMemo (c : Candidate) : Bool := c.wrappers.contains "memo"

/-- Is the candidate wrapped in `forwardRef`? -/
def Candidate.isForwardRef (c : Candidate) : Bool := c.wrappers.contains "forwardRef"

variable (src : Source)

/-! ### Wrappers -/

/-- Is the name that of a wrapper around components? -/
def isWrapper (name : String) : Bool := name == "memo" || name == "forwardRef"

/-- Strip calls of wrappers off an expression without parentheses: what is inside, if it is no
other call, and the names of the wrappers, the outermost first. -/
def stripWrappers (n : Node) : Except Failure (Option Node × List String) :=
  if n.kind == "call_expression" then
    match Hook.calledName? src n with
    | some name =>
      if isWrapper name then
        match _h : (Hook.argumentsOf n).head? with
        | none => .ok (none, [name])
        | some argument =>
          match _h' : argument.bare? with
          | none => .error .incomplete
          | some inner => do
            let (target, wrappers) ← stripWrappers inner
            return (target, name :: wrappers)
      -- Any other call may give a component, but it cannot be looked into.
      else .ok (none, [])
    | none => .ok (none, [])
  else .ok (some n, [])
termination_by n.size
decreasing_by
  have h₁ := Node.size_bare _h'
  have h₂ : argument.size < n.size := by
    unfold Hook.argumentsOf at _h
    cases ha : n.field? "arguments" with
    | none => simp [ha] at _h
    | some a =>
      simp only [ha, Option.map_some, Option.getD_some] at _h
      exact Nat.lt_trans (Node.size_namedChild (List.mem_of_head? _h)) (Node.size_field ha)
  omega

/-- The function inside wrappers and parentheses, and the names of the wrappers. -/
def innerFunction (n : Node) : Except Failure (Option Node × List String) := do
  stripWrappers src (← need n.bare?)

/-! ### Candidates -/

/-- Is the name capitalised and made of ASCII letters, digits and underscores? A line feed at the
end is passed over. -/
def isCapitalised (name : String) : Bool :=
  match name.toList with
  | [] => false
  | c :: cs =>
    let cs := if cs.getLast? == some '\n' then cs.dropLast else cs
    isCapital c && cs.all fun d => isCapital d || isSmall d || isAsciiDigit d || d == '_'

/-- The name of a default export that has none. -/
def anonymousName : String := "Component"

/-- The candidate that a function makes, if it is named like a component and holds markup. -/
def candidate? (name : Option String) (function : Option Node) (statement : Node)
    (wrappers : List String) (isDefault : Bool) (typeText : Option String) :
    Option Candidate :=
  match function with
  | none => none
  | some f =>
    if f.isFunction then
      let name := name.or ((f.field? "name").map src.text)
      -- Only a default export may do without a name.
      let name := if isDefault then name.or (some anonymousName) else name
      match name with
      | none => none
      | some name =>
        if isCapitalised name && (f.field? "body").any Node.hasMarkup then
          some { name, function := f, statement, wrappers, isDefaultExport := isDefault,
                 typeText }
        else none
    else none

/-- The candidate that a declarator makes. -/
def declaratorCandidate? (statement declarator : Node) : Except Failure (Option Candidate) :=
  if declarator.kind == "variable_declarator" then
    match declarator.field? "name", declarator.field? "value" with
    | some name, some value =>
      if name.kind == "identifier" then do
        let (function, wrappers) ← innerFunction src value
        let typeText := (declarator.field? "type").map (annotationText src)
        return candidate? src (some (src.text name)) function statement wrappers false typeText
      else .ok none
    | _, _ => .ok none
  else .ok none

/-- The candidates that the declarators of a declaration make. -/
def declarationCandidates (declaration statement : Node) : Except Failure (List Candidate) := do
  return (← declaration.namedChildren.mapM (declaratorCandidate? src statement)).filterMap id

/-- What a top-level statement adds to the search: candidates, or the name and the wrappers of a
component that is exported by name. -/
structure Found where
  candidates : List Candidate := []
  exported : Option (String × List String) := none

/-- What an exported value adds to the search. -/
def exportedValue (statement value : Node) : Except Failure Found := do
  let (function, wrappers) ← innerFunction src value
  match function with
  | none => return {}
  | some f =>
    if f.isFunction then
      let found := candidate? src none function statement wrappers true none
      return { candidates := found.toList }
    -- A name is looked up among the candidates when all of them are known.
    else if f.kind == "identifier" then return { exported := some (src.text f, wrappers) }
    else return {}

/-- What a top-level statement adds to the search. -/
def statementComponents (statement : Node) : Except Failure Found :=
  if statement.kind == "function_declaration" then
    let found := candidate? src none (some statement) statement [] false none
    .ok { candidates := found.toList }
  else if isVariableDeclaration statement then do
    return { candidates := ← declarationCandidates src statement statement }
  else if statement.kind == "export_statement" then
    let isDefault := statement.hasToken "default"
    match statement.field? "declaration", statement.field? "value" with
    | some declaration, _ =>
      if declaration.kind == "function_declaration" then
        let found := candidate? src none (some declaration) statement [] isDefault none
        .ok { candidates := found.toList }
      else if isVariableDeclaration declaration then do
        return { candidates := ← declarationCandidates src declaration statement }
      else .ok {}
    | none, some value => if isDefault then exportedValue src statement value else .ok {}
    | none, none => .ok {}
  else .ok {}

/-- Mark the first candidate of a name as the default export, with further wrappers. -/
def markExported (name : String) (wrappers : List String) : List Candidate → List Candidate
  | [] => []
  | c :: cs =>
    if c.name == name then
      { c with wrappers := c.wrappers ++ wrappers, isDefaultExport := true } :: cs
    else c :: markExported name wrappers cs

/-- The components of a list of top-level statements. A component that is exported by name is
marked; of several such exports the last one counts. -/
def componentsOf (statements : List Node) : Except Failure (List Candidate) := do
  let found ← statements.mapM (statementComponents src)
  let candidates := found.flatMap (·.candidates)
  match (found.filterMap (·.exported)).getLast? with
  | some (name, wrappers) => return markExported name wrappers candidates
  | none => return candidates

/-- The component to convert: the default export, or else the first. -/
def select? (candidates : List Candidate) : Option Candidate :=
  (candidates.find? (·.isDefaultExport)).or candidates.head?

/-- Does the statement export the component of a name as the default? -/
def exportsByName (name : String) (statement : Node) : Except Failure Bool :=
  if statement.kind == "export_statement" && statement.hasToken "default" then
    match statement.field? "value" with
    | none => .ok false
    | some value => do
      let (target, _) ← innerFunction src value
      return target.any fun t => t.kind == "identifier" && src.text t == name
  else .ok false

/-- The statements that belong to a component: its own, and those that export it by name. -/
def ownStatements (statements : List Node) (chosen : Candidate) :
    Except Failure (List Node) := do
  return chosen.statement :: (← statements.filterM (exportsByName src chosen.name))

end Sveltify.Component

namespace Sveltify.Module

/-- The components of a module. -/
def components (m : Module) : Except Failure (List Component.Candidate) :=
  Component.componentsOf m.source m.statements

end Sveltify.Module
