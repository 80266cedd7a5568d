import Sveltify.Refusal
import Sveltify.Syntax.Preorder
import Sveltify.Text.Blank

namespace Sveltify.Render

open Text

/-!
# Reading JSX and rendered expressions

* `rendersNothing`: is an expression one that renders nothing?
* `mappedList?`: the list and the callback of a call of `map`;
* `tagName?`, `attributesOf`, `attributeName`, `attributeValue?`: the parts of a tag;
* `innerExpression?`: the expression between braces;
* `onlyReturn?`: the expression that a function does nothing but return;
* `keyOf?`: the key of a JSX element.

Beside each reading stands a bound on the size of what it yields.
-/

variable (src : Source)

/-! ### Expressions -/

/-- Literals that render nothing. -/
def emptyLiterals : List String := ["null", "undefined", "false", "true"]

/-- Is the expression, free of wrappers, one that renders nothing? -/
def isEmptyLiteral (n : Node) : Bool :=
  emptyLiterals.contains n.kind || n.kind == "identifier" && src.text n == "undefined"

/-- Is the expression one that renders nothing? -/
def rendersNothing (n : Node) : Except Failure Bool := do
  return isEmptyLiteral src (← need n.bare?)

/-- The operator of an expression. -/
def operator? (n : Node) : Option String := (n.field? "operator").map (·.kind)

/-- The list and the callback of `list.map(callback)`. -/
def mappedList? (n : Node) : Option (Option Node × Node) :=
  if n.kind == "call_expression" then
    match n.field? "function" with
    | none => none
    | some f =>
      if f.kind == "member_expression" && (f.field? "property").any (src.text · == "map") then
        match n.field? "arguments" with
        | none => none
        | some arguments => arguments.firstNamed?.map fun callback => (f.field? "object", callback)
      else none
  else none

theorem size_mapCallback {n callback : Node} {list : Option Node}
    (h : mappedList? src n = some (list, callback)) : callback.size < n.size := by
  unfold mappedList? at h
  split at h
  · split at h
    · simp at h
    · split at h
      · split at h
        · simp at h
        · rename_i arguments ha
          cases hf : arguments.firstNamed? with
          | none => simp [hf] at h
          | some c =>
            simp only [hf, Option.map_some, Option.some.injEq, Prod.mk.injEq] at h
            obtain ⟨_, rfl⟩ := h
            exact Nat.lt_trans (Node.size_firstNamed hf) (Node.size_field ha)
      · simp at h
  · simp at h

/-- The expression that a function does nothing but return. -/
def onlyReturn? (f : Node) : Option Node :=
  match f.field? "body" with
  | none => none
  | some body =>
    if body.kind == "statement_block" then
      match body.namedChildren with
      | [only] => if only.kind == "return_statement" then only.firstNamed? else none
      | _ => none
    else some body

theorem size_onlyReturn {f r : Node} (h : onlyReturn? f = some r) : r.size < f.size := by
  unfold onlyReturn? at h
  split at h
  · simp at h
  · rename_i body hbody
    have hb := Node.size_field hbody
    split at h
    · split at h
      · rename_i only hstatements
        split at h
        · have h₁ := Node.size_firstNamed h
          have h₂ := Node.size_namedChild (c := only) (n := body) (by simp [hstatements])
          omega
        · simp at h
      · simp at h
    · cases h
      exact hb

/-! ### Tags -/

/-- The node that holds the name and the attributes of a JSX element. -/
def tagHolder? (n : Node) : Option Node :=
  if n.kind == "jsx_self_closing_element" then some n
  else if n.kind == "jsx_element" then n.field? "open_tag"
  else none

/-- The name of a JSX element, without blanks. -/
def tagName? (n : Node) : Option String :=
  ((tagHolder? n).bind (·.field? "name")).map fun name => squeeze (src.text name)

/-- The attributes of a JSX element. -/
def attributesOf (n : Node) : List Node :=
  match tagHolder? n with
  | none => []
  | some holder =>
    holder.namedChildren.filter fun c =>
      c.kind == "jsx_attribute" || c.kind == "jsx_expression" && c.field != some "name"

theorem sizeAll_attributesOf (n : Node) : Node.sizeAll (attributesOf n) < n.size := by
  unfold attributesOf
  split
  · simpa using Node.size_pos n
  · rename_i holder hholder
    have h₁ := Node.sizeAll_sublist (List.filter_sublist (l := holder.namedChildren)
      (p := fun c =>
        c.kind == "jsx_attribute" || c.kind == "jsx_expression" && c.field != some "name"))
    have h₂ := Node.sizeAll_namedChildren holder
    have h₃ : holder.size ≤ n.size := by
      unfold tagHolder? at hholder
      split at hholder
      · cases hholder
        exact Nat.le_refl _
      · split at hholder
        · exact Nat.le_of_lt (Node.size_field hholder)
        · simp at hholder
    omega

/-- The name of an attribute. -/
def attributeName (attr : Node) : Except Failure String := do
  return src.text (← need attr.firstNamed?)

/-- The value of an attribute, as it stands after the name. -/
def attributeValue? (attr : Node) : Option Node := attr.namedChildren[1]?

theorem size_attributeValue {a v : Node} (h : attributeValue? a = some v) : v.size < a.size :=
  Node.size_namedChild (List.mem_of_getElem? h)

/-- The expression between the braces of a container; anything else is its own expression. -/
def innerExpression? (container : Node) : Option Node :=
  if container.kind == "jsx_expression" then container.firstNamed? else some container

theorem size_innerExpression {c e : Node} (h : innerExpression? c = some e) : e.size ≤ c.size := by
  unfold innerExpression? at h
  split at h
  · exact Nat.le_of_lt (Node.size_firstNamed h)
  · cases h
    exact Nat.le_refl _

/-- Is the attribute a plain one with the given name? -/
def isAttributeNamed (name : String) (attr : Node) : Except Failure Bool :=
  if attr.kind == "jsx_attribute" then do
    return (← attributeName src attr) == name
  else .ok false

/-- The first attribute of a list with the given name. -/
def findAttribute? (name : String) : List Node → Except Failure (Option Node)
  | [] => .ok none
  | a :: rest => do
    if ← isAttributeNamed src name a then return some a else findAttribute? name rest

/-- The expression of the `key` attribute of a JSX element. -/
def keyOf? (n : Node) : Except Failure (Option Node) := do
  let element ← need n.bare?
  match ← findAttribute? src "key" (attributesOf element) with
  | some attr => return (attributeValue? attr).bind innerExpression?
  | none => return none

/-- The markup in an object literal with the key `__html`. -/
def innerHtml? (value : Node) : Except Failure (Option Node) := do
  let object ← need value.bare?
  if object.kind == "object" then
    let pair := object.namedChildren.find? fun p =>
      p.kind == "pair" && (p.field? "key").any fun key => unquote (src.text key) == "__html"
    return pair.bind (·.field? "value")
  else return none

end Sveltify.Render
