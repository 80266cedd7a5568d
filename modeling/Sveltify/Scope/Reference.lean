import Sveltify.Scope.Globals
import Sveltify.Scope.Pattern
import Sveltify.Text.Letter

namespace Sveltify.Scope

open Text

/-!
# References and the names they may mean

* `bindingsWithin`: every name declared somewhere in a tree, whatever the scope;
* `references`: the identifiers that a tree uses as expressions, in the order of the source;
* `unresolved`: the first use of each name that is neither known nor declared in the tree.
-/

variable (src : Source)

/-! ### Declared names -/

/-- The names that one node declares. -/
def ownBindings (n : Node) : List String :=
  let ownName := ((n.field? "name").map src.text).toList
  if n.isFunction then
    (parametersOf n).flatMap (boundNames src)
      -- An arrow function has no name of its own.
      ++ (if n.kind == "arrow_function" then [] else ownName)
  else
    match n.kind with
    | "variable_declarator" => boundNamesOf src (n.field? "name")
    | "class_declaration" | "class" => ownName
    | "catch_clause" => boundNamesOf src (n.field? "parameter")
    | "for_in_statement" => boundNamesOf src (n.field? "left")
    | _ => []

/-- Every name declared in a tree; a name declared in an inner function or block counts too. -/
def bindingsWithin (n : Node) : List String := n.preorder.flatMap (ownBindings src)

/-! ### Used names -/

/-- Parts of the source that hold no expressions. -/
def skippedKinds : List String :=
  ["type_annotation", "type_arguments", "type_parameters", "statement_identifier"]

/-- Is the pattern one with a default value? -/
def hasDefault (n : Node) : Bool :=
  n.kind == "assignment_pattern" || n.kind == "object_assignment_pattern"

/-- Is the node the name of a JSX tag that stands for a DOM element? -/
def isDomTag (n : Node) : Bool := n.kind == "identifier" && startsLower (src.text n)

mutual

/-- The identifiers used as expressions in a tree. -/
def references (n : Node) : List Node :=
  if n.kind == "jsx_closing_element" then []
  else if n.kind == "jsx_opening_element" || n.kind == "jsx_self_closing_element" then
    tagReferences n.children
  else if n.kind == "jsx_attribute" then
    -- The first part of an attribute is its name.
    listReferences (n.namedChildren.drop 1)
  else if n.kind == "variable_declarator" then declaratorReferences n.children
  else if n.kind == "identifier" || n.kind == "shorthand_property_identifier" then [n]
  else if skippedKinds.contains n.kind then []
  else listReferences n.children
termination_by 3 * n.size
decreasing_by
  · rw [Node.size_eq n]
    omega
  · have h := Nat.lt_of_le_of_lt (Node.sizeAll_sublist (List.drop_sublist 1 _))
      (Node.sizeAll_namedChildren n)
    omega
  · rw [Node.size_eq n]
    omega
  · rw [Node.size_eq n]
    omega

/-- The identifiers used in a list of trees. -/
def listReferences : List Node → List Node
  | [] => []
  | c :: cs => references c ++ listReferences cs
termination_by cs => 3 * Node.sizeAll cs + 1
decreasing_by
  all_goals simp only [Node.sizeAll_cons]
  · omega
  · have := Node.size_pos c
    omega

/-- The identifiers used in the parts of a JSX tag; the name of a DOM element is none. -/
def tagReferences : List Node → List Node
  | [] => []
  | c :: cs =>
    (if c.field == some "name" && c.kind == "identifier" then
      (if isDomTag src c then [] else [c])
    else references c) ++ tagReferences cs
termination_by cs => 3 * Node.sizeAll cs + 1
decreasing_by
  all_goals simp only [Node.sizeAll_cons]
  · omega
  · have := Node.size_pos c
    omega

/-- The identifiers used in the parts of a declarator, of which the first one in the role of the
name is a pattern. -/
def declaratorReferences : List Node → List Node
  | [] => []
  | c :: cs =>
    if c.field == some "name" then defaultReferences c ++ listReferences cs
    else references c ++ declaratorReferences cs
termination_by cs => 3 * Node.sizeAll cs + 2
decreasing_by
  all_goals simp only [Node.sizeAll_cons]
  all_goals have := Node.size_pos c
  all_goals omega

/-- The identifiers used in the default values of a pattern. -/
def defaultReferences (p : Node) : List Node :=
  p.preorder.attach.flatMap fun ⟨c, _⟩ =>
    if hasDefault c then
      match _h : c.field? "right" with
      | some right => references right
      | none => []
    else []
termination_by 3 * p.size + 1
decreasing_by
  have h := Nat.lt_of_lt_of_le (Node.size_field _h) (Node.size_le_of_mem_preorder ‹_›)
  omega

end

/-- The names used as expressions in a tree. -/
def namesUsed (n : Node) : List String := (references src n).map src.text

/-! ### Unresolved names -/

/-- Of the references, the first one of each name that is not `known`. -/
def firstUnknown (known : List String) : List String → List Node → List Node
  | _, [] => []
  | seen, r :: rs =>
    let name := src.text r
    if known.contains name || seen.contains name then firstUnknown known seen rs
    else r :: firstUnknown known (name :: seen) rs

/-- The first use of each name that is not global, known, extra or declared in the tree. -/
def unresolved (known extra : List String) (n : Node) : List Node :=
  firstUnknown src (globals ++ known ++ extra ++ bindingsWithin src n) [] (references src n)

end Sveltify.Scope
