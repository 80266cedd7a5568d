import Sveltify.Svelte.Script.Printer
import Sveltify.Svelte.Template
import Sveltify.Text.Blank

namespace Sveltify.Svelte

open Text

/-!
# Printing templates

An element with short content stands on one line; any other markup is laid out as a block, each
level indented by one step.

* `TemplateAttribute.text`: an attribute as it is written;
* `inlineNode`, `inlineNodes`: markup on one line, if that is possible;
* `elementLines`: the layout of an element, given the block layout of its content;
* `nodeLines`, `nodesLines`: markup at a depth;
* `templateLines`: the markup of a component.
-/

/-! ### Attributes and tags -/

/-- The text in braces. -/
def braced (s : String) : String := s!"\x7b{s}\x7d"

/-- The value of an attribute in print. -/
def TemplateAttribute.valueText (a : TemplateAttribute) : String := a.value.getD "None"

/-- An attribute as it is written. -/
def TemplateAttribute.text (a : TemplateAttribute) : Except PrintError String :=
  let value := a.valueText
  match a.kind with
  | .static => .ok s!"{a.name}=\"{value}\""
  | .expression | .event => .ok s!"{a.name}={braced value}"
  | .shorthand => .ok (braced value)
  | .boolean => .ok a.name
  | .spread => .ok (braced s!"...{value}")
  | .bind =>
    if a.value = some a.name then .ok s!"bind:{a.name}" else .ok s!"bind:{a.name}={braced value}"
  | .style => .ok s!"style:{a.name}={value}"
  | .foreign kind => .error (.unknownAttributeKind kind)

/-- Does the text hold a line feed? -/
def hasLineFeed (s : String) : Bool := s.toList.contains '\n'

/-- The text, if it is a single line. -/
def singleLine? (s : String) : Option String := if hasLineFeed s then none else some s

/-- An opening tag with attributes in print. -/
def startTag (name : String) (attributes : List String) (close : String) : String :=
  s!"<{name}" ++ String.join (attributes.map (" " ++ ·)) ++ close

/-- A closing tag. -/
def closeTag (name : String) : String := s!"</{name}>"

/-- The attributes in print, if each of them is a single line. -/
def inlineAttributes (attributes : List TemplateAttribute) :
    Except PrintError (Option (List String)) := do
  let texts ← attributes.mapM TemplateAttribute.text
  return if texts.any hasLineFeed then none else some texts

/-! ### Markup on one line -/

/-- Both texts one after the other, if both are there. -/
def joined (a b : Option String) : Option String := return (← a) ++ (← b)

mutual

/-- A node on one line. Blocks, component instances and void elements are never put on one. -/
def inlineNode : TemplateNode → Except PrintError (Option String)
  | .text text => .ok (singleLine? text)
  | .expression e => .ok (singleLine? (braced e))
  | .html e => .ok (singleLine? (braced s!"@html {e}"))
  | .render e => .ok (singleLine? (braced s!"@render {e}"))
  | .element tag attributes children false => do
    match ← inlineAttributes attributes with
    | none => return none
    | some texts =>
      let content ← inlineNodes children
      return content.map fun c => startTag tag texts ">" ++ c ++ closeTag tag
  | .element _ _ _ true => .ok none
  | .component .. => .ok none
  | .constant _ => .ok none
  | .conditional .. => .ok none
  | .each .. => .ok none
  | .snippet .. => .ok none
  | .placeholder _ => .ok none
  | .foreign _ => .ok none

/-- Nodes on one line. -/
def inlineNodes : List TemplateNode → Except PrintError (Option String)
  | [] => .ok (some "")
  | n :: rest => do
    let first ← inlineNode n
    let others ← inlineNodes rest
    return joined first others

end

/-! ### Blocks -/

/-- The number of characters up to which an element stands on one line, its closing tag not
counted. -/
def inlineLimit : Nat := 100

/-- May the content stand on one line? Elements inside it stay there only in running text. -/
def mayInline (children : List TemplateNode) : Bool :=
  !children.any TemplateNode.isElement ||
    children.any fun
      | .text text => !isAllBlank text
      | _ => false

/-- The indentation at a depth. -/
def padding (indent : String) (depth : Nat) : String := String.join (List.replicate depth indent)

/-- The lines of a text at a depth. -/
def padded (indent : String) (depth : Nat) (text : String) : List String :=
  padLines (padding indent depth) (lines text)

/-- An opening tag that has each attribute on lines of its own. -/
def tallOpening (indent : String) (depth : Nat) (name : String) (attributes : List String)
    (close : String) : List String :=
  let pad := padding indent depth
  (pad ++ s!"<{name}") :: attributes.flatMap (padded indent (depth + 1)) ++ [pad ++ strip close]

/-- The layout of an element that has content, with its opening in print: on one line if that is
short enough, else with the content as a block. -/
def contentLines (pad name : String) (opening : List String) (oneLine : Option String)
    (children : List TemplateNode) (block : Except PrintError (List String)) :
    Except PrintError (List String) := do
  -- Content is tried on one line only if the opening tag is on one line.
  let inline ← match oneLine with
    | some openText =>
      if mayInline children then
        let content ← inlineNodes children
        pure (content.map fun c => (openText, strip c))
      else pure none
    | none => pure none
  let blockLines : Except PrintError (List String) := do
    return opening ++ (← block) ++ [pad ++ closeTag name]
  match inline with
  | some (openText, content) =>
    if pad.length + openText.length + content.length ≤ inlineLimit
    then return [pad ++ openText ++ content ++ closeTag name]
    else blockLines
  | none => blockLines

/-- The layout of an element, given the layout of its content as a block. -/
def elementLines (indent : String) (depth : Nat) (name : String)
    (attributes : List TemplateAttribute) (children : List TemplateNode) (isSelfClosing : Bool)
    (block : Except PrintError (List String)) : Except PrintError (List String) := do
  let pad := padding indent depth
  let close := if isSelfClosing then " />" else ">"
  let texts ← attributes.mapM TemplateAttribute.text
  -- An attribute of several lines puts all attributes on lines of their own.
  let oneLine := if texts.any hasLineFeed then none else some (startTag name texts close)
  let opening :=
    match oneLine with
    | some openText => [pad ++ openText]
    | none => tallOpening indent depth name texts close
  if isSelfClosing then return opening
  else if children.isEmpty then return enclose "" (closeTag name) opening
  else contentLines pad name opening oneLine children block

/-- The head of a list block. -/
def eachHead (expression item : String) (index key : Option String) : String :=
  let index :=
    match nonEmpty? index with
    | some i => s!", {i}"
    | none => ""
  let key :=
    match nonEmpty? key with
    | some k => s!" ({k})"
    | none => ""
  braced s!"#each {expression} as {item}{index}{key}"

/-- The lines of a placeholder: one comment. -/
def Placeholder.templateLines (pad : String) (p : Placeholder) : List String :=
  let reason := escapeComment p.reason
  s!"{pad}<!-- {p.marker}: {reason}" ::
    (Text.lines p.source).map (fun line => padLine pad (escapeComment line)) ++ [pad ++ "-->"]

mutual

/-- The lines of a node at a depth. -/
def nodeLines (indent : String) (depth : Nat) : TemplateNode → Except PrintError (List String)
  | .text text =>
    let text := strip text
    .ok (if text.isEmpty then [] else [padding indent depth ++ text])
  | .expression e => .ok (padded indent depth (braced e))
  | .html e => .ok (padded indent depth (braced s!"@html {e}"))
  | .render e => .ok (padded indent depth (braced s!"@render {e}"))
  | .constant declaration => .ok (padded indent depth (braced s!"@const {declaration}"))
  | .element tag attributes children isVoid =>
    elementLines indent depth tag attributes children isVoid
      (nodesLines indent (depth + 1) children)
  | .component name attributes children =>
    elementLines indent depth name attributes children children.isEmpty
      (nodesLines indent (depth + 1) children)
  | .conditional branches elseChildren => do
    let shown ← branchLines indent depth "#if" branches
    let otherwise ← elseLines indent depth elseChildren
    return shown ++ otherwise ++ [padding indent depth ++ braced "/if"]
  | .each expression item index key children => do
    let content ← nodesLines indent (depth + 1) children
    return padded indent depth (eachHead expression item index key) ++ content ++
      [padding indent depth ++ braced "/each"]
  | .snippet name parameters children => do
    let content ← nodesLines indent (depth + 1) children
    return padded indent depth (braced s!"#snippet {name}({parameters})") ++ content ++
      [padding indent depth ++ braced "/snippet"]
  | .placeholder p => .ok (p.templateLines (padding indent depth))
  | .foreign kind => .error (.unknownTemplateNode kind)

/-- The lines of several nodes at a depth. -/
def nodesLines (indent : String) (depth : Nat) :
    List TemplateNode → Except PrintError (List String)
  | [] => .ok []
  | n :: rest => do
    let first ← nodeLines indent depth n
    let others ← nodesLines indent depth rest
    return first ++ others

/-- The lines of the branches of a condition, the first of them opened by `opener`. -/
def branchLines (indent : String) (depth : Nat) (opener : String) :
    List IfBranch → Except PrintError (List String)
  | [] => .ok []
  | .mk condition children :: rest => do
    let content ← nodesLines indent (depth + 1) children
    let others ← branchLines indent depth ":else if" rest
    return padded indent depth (braced s!"{opener} {condition}") ++ content ++ others

/-- The lines shown where no condition holds. -/
def elseLines (indent : String) (depth : Nat) :
    Option (List TemplateNode) → Except PrintError (List String)
  | none => .ok []
  | some children => do
    let content ← nodesLines indent (depth + 1) children
    return (padding indent depth ++ braced ":else") :: content

end

/-- The lines of the markup of a component; a snippet is followed by an empty line. -/
def templateLines (indent : String) : List TemplateNode → Except PrintError (List String)
  | [] => .ok []
  | n :: rest => do
    let first ← nodeLines indent 0 n
    let others ← templateLines indent rest
    let gap := if n.isSnippet && !rest.isEmpty then [""] else []
    return first ++ gap ++ others

end Sveltify.Svelte
