import Sveltify.Refusal
import Sveltify.Syntax.Preorder
import Sveltify.Text.Blank
import Sveltify.Text.Letter
import Sveltify.Text.Line
import Sveltify.Text.Quoted

namespace Sveltify

open Text

/-!
# Modules

A module is a source with a syntax tree in which nothing is broken.

* `Defect`: what can be wrong with a tree, with its wording in `Defect.message`;
* `Module.defect?`: the first defect of a tree, if there is one;
* `Module.read`: the module of a source and its tree, or the refusal of its first defect.

Broken syntax is looked for first, then JSX tags that do not match, then class components.
-/

/-- The dialect a module is written in. -/
inductive Dialect where
  | javascript
  | typescript
deriving Repr, DecidableEq

/-- The name of the grammar for a dialect. -/
def Dialect.grammar : Dialect → String
  | .javascript => "javascript"
  | .typescript => "tsx"

/-- A source with its syntax tree. -/
structure Module where
  source : Source
  root : Node
  dialect : Dialect
deriving Repr

/-- The top-level statements of a module. -/
def Module.statements (m : Module) : List Node := m.root.namedChildren

/-- The place of a node. -/
def Source.place (src : Source) (n : Node) : Place :=
  let p := src.startOf n
  { path := some src.name, line := some p.line, column := some p.column }

/-! ### Defects -/

/-- What can be wrong with a syntax tree. -/
inductive Defect where
  /-- A part that was put in to repair the tree. -/
  | missing (kind : String)
  /-- A stretch that fits no rule, with the line it starts with. -/
  | unexpected (snippet : String)
  /-- A JSX element whose closing tag has another name. -/
  | mismatchedTag (opened closed : String)
  /-- A component written as a class. -/
  | classComponent (name : String)
deriving Repr, DecidableEq

/-- How much of a stretch is shown in a message. -/
def snippetLimit : Nat := 40

/-- The defect in words. -/
def Defect.message : Defect → String
  | .missing kind => s!"Missing {quoted kind}"
  | .unexpected "" => "Unexpected syntax"
  | .unexpected snippet =>
    let shown := quoted (String.ofList (snippet.toList.take snippetLimit))
    s!"Unexpected syntax near {shown}"
  | .mismatchedTag opened closed =>
    s!"Expected corresponding JSX closing tag for <{opened}> but found </{closed}>"
  | .classComponent name =>
    s!"Class component {name} cannot be converted; rewrite it as a function component first"

/-- The kind of refusal that a defect leads to. -/
def Defect.kind : Defect → RefusalKind
  | .classComponent _ => .unsupported
  | _ => .malformed

/-- The construct that a defect names. -/
def Defect.construct : Defect → Option String
  | .classComponent _ => some "class component"
  | _ => none

/-- Advice for a defect: a colon in stray text looks like a type annotation. -/
def Defect.hint (dialect : Dialect) : Defect → Option String
  | .unexpected snippet =>
    if dialect = .javascript ∧ ':' ∈ snippet.toList then
      some "enable the typescript option for TypeScript sources"
    else none
  | _ => none

/-- The refusal of a tree with a defect at a node. -/
def Source.refuse (src : Source) (dialect : Dialect) (d : Defect) (n : Node) : Refusal where
  kind := d.kind
  message := d.message
  place := src.place n
  construct := d.construct
  hint := d.hint dialect

/-! ### Looking for defects -/

/-- The line that a text starts with, blanks before it left out. -/
def leadingLine (s : String) : String := firstLine (strip s)

/-- Is the node itself broken? -/
def Source.brokenAt? (src : Source) (n : Node) : Option Defect :=
  if n.isMissing then some (.missing n.kind)
  else if n.kind == "ERROR" then some (.unexpected (leadingLine (src.text n)))
  else none

/-- The name in a JSX tag, without blanks. -/
def Source.tagText (src : Source) (tag : Node) : String :=
  match tag.field? "name" with
  | some name => squeeze (src.text name)
  | none => ""

/-- The tags of a JSX element with different names, if it has such, and the closing one. -/
def Source.mismatchAt? (src : Source) (n : Node) : Option (Defect × Node) :=
  if n.kind == "jsx_element" then
    match n.field? "open_tag", n.field? "close_tag" with
    | some opening, some closing =>
      let opened := src.tagText opening
      let closed := src.tagText closing
      if opened == closed then none else some (.mismatchedTag opened closed, closing)
    | _, _ => none
  else none

/-- The rest of a character list after a word. -/
def afterWord? (word : String) (cs : List Char) : Option (List Char) :=
  if word.toList.isPrefixOf cs then some (cs.drop word.toList.length) else none

/-- The rest after `React .`, if the characters start so, else all of them. -/
def skipReactDot (cs : List Char) : List Char :=
  match afterWord? "React" cs with
  | none => cs
  | some rest =>
    match rest.dropWhile isBlank with
    | '.' :: rest => rest.dropWhile isBlank
    | _ => cs

/-- Do the characters name a class of components that classes extend? -/
def namesComponentClass (cs : List Char) : Bool :=
  let cs := skipReactDot cs
  let cs := (afterWord? "Pure" cs).getD cs
  match afterWord? "Component" cs with
  | some rest => !rest.head?.any isWord
  | none => false

/-- Is there a clause `extends Component` or one like it? The flag says whether a word goes on at
the front of the characters. -/
def extendsComponent : Bool → List Char → Bool
  | _, [] => false
  | inWord, c :: cs =>
    let here := !inWord && match afterWord? "extends" (c :: cs) with
      | some (d :: rest) => isBlank d && namesComponentClass (rest.dropWhile isBlank)
      | _ => false
    here || extendsComponent (isWord c) cs

/-- A class component at the node. -/
def Source.classAt? (src : Source) (n : Node) : Option Defect :=
  if n.kind == "class_declaration" || n.kind == "class" then
    match n.childOfKind? ["class_heritage"] with
    | some heritage =>
      if extendsComponent false (src.text heritage).toList then
        some (.classComponent (((n.field? "name").map src.text).getD "<anonymous>"))
      else none
    | none => none
  else none

/-- The first defect of a tree and the node it is found at. Stray syntax is reported only if the
reader of the source says that there is some; if none is found then, the whole tree is at fault. -/
def Module.defect? (src : Source) (root : Node) (hasError : Bool) : Option (Defect × Node) :=
  let nodes := root.preorder
  if hasError then
    some ((nodes.findSome? fun n => (src.brokenAt? n).map (·, n)).getD (.unexpected "", root))
  else
    (nodes.findSome? src.mismatchAt?).or
      (nodes.findSome? fun n => (src.classAt? n).map (·, n))

/-- The module of a source and its tree. -/
def Module.read (src : Source) (root : Node) (hasError typescript : Bool) :
    Except Refusal Module :=
  let dialect : Dialect := if typescript then .typescript else .javascript
  match Module.defect? src root hasError with
  | some (d, n) => .error (src.refuse dialect d n)
  | none => .ok ⟨src, root, dialect⟩

end Sveltify
