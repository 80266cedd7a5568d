import Sveltify.Scope.Pattern
import Sveltify.Text.Letter
import Sveltify.Text.Line

namespace Sveltify.Scope

open Text

/-!
# Top-level declarations

* `statementNames`: the names that a top-level statement brings into the module;
* `importsReact`: does a statement import from React?
* `leadingIdentifier?`: the identifier that an access path starts with.
-/

variable (src : Source)

/-! ### Imports -/

/-- The names that a part of an import clause brings in. -/
def importNames (part : Node) : List String :=
  match part.kind with
  | "identifier" => [src.text part]
  | "namespace_import" =>
    (part.namedChildren.filter (·.kind == "identifier")).map src.text
  | "named_imports" =>
    part.namedChildren.filterMap fun spec =>
      ((spec.field? "alias").or (spec.field? "name")).map src.text
  | _ => []

/-- The packages of React. -/
def reactPackages : List String := ["react", "react-dom"]

/-- A quotation mark of any kind of string. -/
def isAnyQuote (c : Char) : Bool := isQuote c || c == '\x60'

/-- Does the statement import from a package of React or from a path inside one? -/
def importsReact (statement : Node) : Bool :=
  match statement.field? "source" with
  | none => false
  | some source =>
    let path := stripOf isAnyQuote (src.text source)
    reactPackages.contains (String.ofList (path.toList.takeWhile (· != '/')))

/-! ### Declared names -/

/-- The names that the declarators of a variable declaration bind. -/
def declaratorNames (declaration : Node) : List String :=
  (declaration.namedChildren.filter (·.kind == "variable_declarator")).flatMap fun d =>
    boundNamesOf src (d.field? "name")

/-- Is the node a declaration of variables? -/
def isVariableDeclaration (n : Node) : Bool :=
  n.kind == "lexical_declaration" || n.kind == "variable_declaration"

/-- The names that a top-level statement declares. -/
def statementNames (statement : Node) : List String :=
  if statement.kind == "import_statement" then
    match statement.childOfKind? ["import_clause"] with
    | some clause => clause.namedChildren.flatMap (importNames src)
    | none => []
  else if statement.kind == "export_statement" then
    match _h : statement.field? "declaration" with
    | some declaration => statementNames declaration
    | none => []
  else if isVariableDeclaration statement then declaratorNames src statement
  else
    match statement.field? "name" with
    | some name =>
      if "declaration".toList.isSuffixOf statement.kind.toList then [src.text name] else []
    | none => []
termination_by statement.size
decreasing_by exact Node.size_field _h

/-! ### Access paths -/

/-- May the character start an identifier, by ASCII alone? -/
def isIdentifierStart (c : Char) : Bool := isCapital c || isSmall c || c == '_' || c == '$'

/-- May the character go on with an identifier? -/
def isIdentifierPart (c : Char) : Bool := isWord c || c == '$'

/-- The identifier that a text starts with, blanks before it not counted. -/
def leadingIdentifier? (expression : String) : Option String :=
  match (strip expression).toList with
  | c :: cs =>
    if isIdentifierStart c then some (String.ofList (c :: cs.takeWhile isIdentifierPart)) else none
  | [] => none

end Sveltify.Scope
