import Sveltify.Proofs.Svelte.Tokens

namespace Sveltify.Svelte

open Text

/-!
# The structure of a template

The tags and blocks of a template, from the outside in and one after another, are nested.

* `nodeTokens`, `nodesTokens`: the tags and blocks of a template;
* `nodePrintable`, `nodesPrintable`: no text in the template looks like a tag or a block;
* `Token.onto`, `isNested`: every tag and block is closed, inside the one that it was opened in;
* `isNested_nodesTokens`: those of a template are nested.
-/

/-! ### The tags and blocks of a template -/

mutual

/-- The tags and blocks of a node. -/
def nodeTokens : TemplateNode → List Token
  | .element tag _ children isVoid =>
    if isVoid then .stands tag :: nodesTokens children
    else .opens tag :: nodesTokens children ++ [.closes tag]
  | .component name _ children =>
    if children.isEmpty then [.stands name]
    else .opens name :: nodesTokens children ++ [.closes name]
  | .conditional branches elseChildren =>
    branchTokens .ifOpens branches ++ elseTokens elseChildren ++ [.ifCloses]
  | .each _ _ _ _ children => .eachOpens :: nodesTokens children ++ [.eachCloses]
  | .snippet _ _ children => .snippetOpens :: nodesTokens children ++ [.snippetCloses]
  | .text _ | .expression _ | .html _ | .render _ | .constant _ | .placeholder _ | .foreign _ => []

/-- The tags and blocks of several nodes. -/
def nodesTokens : List TemplateNode → List Token
  | [] => []
  | n :: rest => nodeTokens n ++ nodesTokens rest

/-- The tags and blocks of the branches of a condition, the first of them opened by `opener`. -/
def branchTokens (opener : Token) : List IfBranch → List Token
  | [] => []
  | .mk _ children :: rest => opener :: nodesTokens children ++ branchTokens .elseIf rest

/-- The tags and blocks shown where no condition holds. -/
def elseTokens : Option (List TemplateNode) → List Token
  | none => []
  | some children => .otherwise :: nodesTokens children

end

/-! ### Templates without marks in their texts -/

/-- The attribute has a name wherever that is written, and a value without marks. -/
def TemplateAttribute.isPrintable (a : TemplateAttribute) : Bool :=
  isPlain a.valueText &&
    match a.kind with
    | .shorthand | .spread => true
    | .foreign _ => false
    | _ => isName a.name

mutual

/-- Tags and attributes have names, no other text holds a mark, a void element has no content, a
condition has a branch, and there is nothing that was not converted. -/
def nodePrintable : TemplateNode → Bool
  | .element tag attributes children isVoid =>
    isName tag && attributes.all TemplateAttribute.isPrintable && (!isVoid || children.isEmpty)
      && nodesPrintable children
  | .component name attributes children =>
    isName name && attributes.all TemplateAttribute.isPrintable && nodesPrintable children
  | .text s | .expression s | .html s | .render s | .constant s => isPlain s
  | .conditional branches elseChildren =>
    !branches.isEmpty && branchesPrintable branches && elsePrintable elseChildren
  | .each expression item index key children =>
    isPlain expression && isPlain item && index.all isPlain && key.all isPlain
      && nodesPrintable children
  | .snippet name parameters children =>
    isPlain name && isPlain parameters && nodesPrintable children
  | .placeholder _ | .foreign _ => false

/-- Several nodes without marks in their texts. -/
def nodesPrintable : List TemplateNode → Bool
  | [] => true
  | n :: rest => nodePrintable n && nodesPrintable rest

/-- Branches without marks in their texts. -/
def branchesPrintable : List IfBranch → Bool
  | [] => true
  | .mk condition children :: rest =>
    isPlain condition && nodesPrintable children && branchesPrintable rest

/-- Markup without marks in its texts, if there is any. -/
def elsePrintable : Option (List TemplateNode) → Bool
  | none => true
  | some children => nodesPrintable children

end

/-! ### Bracketing -/

/-- What is open at a place of the markup. -/
inductive Frame where
  | tag (name : String)
  /-- A branch of a condition. -/
  | branch
  /-- What is shown where no condition holds. -/
  | last
  | each
  | snippet
deriving Repr, DecidableEq

/-- What is open behind a token; `none` if the token does not fit there. -/
def Token.onto : Token → List Frame → Option (List Frame)
  | .opens name, stack => some (.tag name :: stack)
  | .stands _, stack => some stack
  | .closes name, .tag opened :: stack => if opened = name then some stack else none
  | .ifOpens, stack => some (.branch :: stack)
  | .elseIf, .branch :: stack => some (.branch :: stack)
  | .otherwise, .branch :: stack => some (.last :: stack)
  | .ifCloses, .branch :: stack => some stack
  | .ifCloses, .last :: stack => some stack
  | .eachOpens, stack => some (.each :: stack)
  | .eachCloses, .each :: stack => some stack
  | .snippetOpens, stack => some (.snippet :: stack)
  | .snippetCloses, .snippet :: stack => some stack
  | _, _ => none

/-- What is open behind tokens. -/
def openBehind (ts : List Token) (stack : List Frame) : Option (List Frame) :=
  ts.foldlM (fun stack t => t.onto stack) stack

/-- Everything that is opened is closed, each inside the one that it was opened in. -/
def isNested (ts : List Token) : Bool := openBehind ts [] == some []

@[simp] theorem openBehind_nil (stack : List Frame) : openBehind [] stack = some stack := rfl

@[simp] theorem openBehind_cons (t : Token) (ts : List Token) (stack : List Frame) :
    openBehind (t :: ts) stack = (t.onto stack).bind (openBehind ts) :=
  rfl

/-- What is open behind two lists of tokens. -/
@[simp] theorem openBehind_append (ts ts' : List Token) (stack : List Frame) :
    openBehind (ts ++ ts') stack = (openBehind ts stack).bind (openBehind ts') :=
  List.foldlM_append

mutual

/-- Behind a node the same is open as in front of it. -/
theorem openBehind_node (n : TemplateNode) (h : nodePrintable n = true) (stack : List Frame) :
    openBehind (nodeTokens n) stack = some stack := by
  cases n with
  | element tag attributes children isVoid =>
    simp only [nodePrintable, Bool.and_eq_true] at h
    have content := openBehind_nodes children h.2
    cases isVoid <;> simp [nodeTokens, content, Token.onto]
  | component name attributes children =>
    simp only [nodePrintable, Bool.and_eq_true] at h
    have content := openBehind_nodes children h.2
    cases hnil : children.isEmpty <;> simp [nodeTokens, hnil, content, Token.onto]
  | conditional branches elseChildren =>
    simp only [nodePrintable, Bool.and_eq_true] at h
    obtain ⟨⟨hne, hbranches⟩, helse⟩ := h
    cases branches with
    | nil => cases hne
    | cons b rest =>
      -- The first branch opens the condition, which the later ones keep open and the end closes.
      obtain ⟨condition, children⟩ := b
      simp only [branchesPrintable, Bool.and_eq_true] at hbranches
      obtain ⟨⟨-, hchildren⟩, hrest⟩ := hbranches
      have first := openBehind_nodes children hchildren
      have others := openBehind_branches rest hrest
      obtain ⟨frame, hlast, hcloses⟩ := openBehind_else elseChildren helse stack
      have hopens : Token.ifOpens.onto stack = some (.branch :: stack) := rfl
      simp [nodeTokens, branchTokens, first, others, hlast, hcloses, hopens]
  | each expression item index key children =>
    simp only [nodePrintable, Bool.and_eq_true] at h
    simp [nodeTokens, openBehind_nodes children h.2, Token.onto]
  | snippet name parameters children =>
    simp only [nodePrintable, Bool.and_eq_true] at h
    simp [nodeTokens, openBehind_nodes children h.2, Token.onto]
  | _ => rfl

/-- Markup closes what it opens. -/
theorem openBehind_nodes (ns : List TemplateNode) (h : nodesPrintable ns = true)
    (stack : List Frame) : openBehind (nodesTokens ns) stack = some stack := by
  cases ns with
  | nil => rfl
  | cons n rest =>
    simp only [nodesPrintable, Bool.and_eq_true] at h
    simp [nodesTokens, openBehind_node n h.1, openBehind_nodes rest h.2]

/-- Later branches follow a branch. -/
theorem openBehind_branches (bs : List IfBranch) (h : branchesPrintable bs = true)
    (stack : List Frame) :
    openBehind (branchTokens .elseIf bs) (.branch :: stack) = some (.branch :: stack) := by
  cases bs with
  | nil => rfl
  | cons b rest =>
    obtain ⟨condition, children⟩ := b
    simp only [branchesPrintable, Bool.and_eq_true] at h
    simp [branchTokens, openBehind_nodes children h.1.2, openBehind_branches rest h.2, Token.onto]

/-- A condition can be closed behind its last part. -/
theorem openBehind_else (content : Option (List TemplateNode)) (h : elsePrintable content = true)
    (stack : List Frame) :
    ∃ frame, openBehind (elseTokens content) (.branch :: stack) = some (frame :: stack) ∧
      Token.ifCloses.onto (frame :: stack) = some stack := by
  cases content with
  | none => exact ⟨.branch, rfl, rfl⟩
  | some children =>
    simp only [elsePrintable] at h
    exact ⟨.last, by simp [elseTokens, openBehind_nodes children h, Token.onto], rfl⟩

end

/-- So its tokens nest. -/
theorem isNested_nodesTokens {ns : List TemplateNode} (h : nodesPrintable ns = true) :
    isNested (nodesTokens ns) = true := by
  rw [isNested, openBehind_nodes ns h, beq_self_eq_true]

end Sveltify.Svelte
