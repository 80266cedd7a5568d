import Sveltify.Component.Candidate

namespace Sveltify.Component

open Text Scope

/-!
# The props of a component

The first parameter of a component receives its props, all of them under one name or each by a
pattern; a component behind `forwardRef` receives a ref as its second parameter.

* `PropBinding`: one prop and the name it is bound to;
* `ComponentProps`: the shape of the parameter and its bindings;
* `propsOf`: the props of a component.
-/

/-- The shape of the parameter that receives the props. -/
inductive PropsPattern where
  | destructured
  | identifier
  | absent
deriving Repr, DecidableEq

/-- The word for a shape. -/
def PropsPattern.text : PropsPattern → String
  | .destructured => "destructured"
  | .identifier => "identifier"
  | .absent => "none"

/-- One prop. -/
structure PropBinding where
  name : String
  node : Node
  defaultValue : Option Node := none
  isEventHandler : Bool := false
  isRest : Bool := false
  isBindable : Bool := false
  localName : Option String := none
deriving Repr

/-- The name under which the prop is visible in the component. -/
def PropBinding.visibleName (p : PropBinding) : String := (nonEmpty? p.localName).getD p.name

/-- What the parameters of a component say about its props. -/
structure ComponentProps where
  pattern : PropsPattern
  bindings : List PropBinding := []
  identifier : Option String := none
  typeText : Option String := none
deriving Repr

variable (src : Source)

/-- Is the name that of an event attribute: `on`, then a capital? -/
def isEventName (name : String) : Bool :=
  match name.toList with
  | 'o' :: 'n' :: c :: _ => isCapital c
  | _ => false

/-! ### Types of function components -/

/-- The rest after the name of a function component type. -/
def afterComponentType? (cs : List Char) : Option (List Char) :=
  let cs := skipReactDot cs
  ["FC", "FunctionComponent", "VFC"].findSome? fun name => afterWord? name cs

/-- The props type in an annotation `FC<Props>`. -/
def componentTypeProps? (typeText : String) : Option String :=
  match afterComponentType? (strip typeText).toList with
  | none => none
  | some cs =>
    match cs.dropWhile isBlank with
    | '<' :: rest =>
      if rest.getLast? == some '>' && !rest.dropLast.isEmpty then
        some (strip (String.ofList rest.dropLast))
      else none
    | _ => none

/-! ### Destructured props -/

/-- The prop that an element of an object pattern binds. -/
def boundProp? (element : Node) : Option PropBinding :=
  match element.kind with
  | "shorthand_property_identifier_pattern" =>
    let name := src.text element
    some { name, node := element, isEventHandler := isEventName name }
  | "object_assignment_pattern" =>
    let name := src.text ((element.field? "left").getD element)
    some { name, node := element, defaultValue := element.field? "right",
           isEventHandler := isEventName name }
  | "pair_pattern" =>
    let name := match element.field? "key" with
      | some key => unquote (src.text key)
      | none => src.text element
    let value := element.field? "value"
    let default := value.bind fun v =>
      if v.kind == "assignment_pattern" then v.field? "right" else none
    let localName := match boundNamesOf src value with
      | [only] => if only == name then none else some only
      | _ => none
    some { name, node := element, defaultValue := default, isEventHandler := isEventName name,
           localName }
  | "rest_pattern" =>
    some { name := (boundNames src element).headD "rest", node := element, isRest := true }
  | _ => none

/-- The forwarded ref of a component, if it takes one. -/
def forwardedRef? (c : Candidate) (parameters : List Node) : Option PropBinding :=
  match parameters with
  | _ :: second :: _ =>
    let pattern := patternOf second
    if c.isForwardRef && pattern.kind == "identifier" then
      let name := src.text pattern
      some { name := "ref", node := pattern, isBindable := true,
             localName := if name == "ref" then none else some name }
    else none
  | _ => none

/-- The pattern inside a parameter with a default. -/
def withoutDefault (pattern : Node) : Node :=
  if pattern.kind == "assignment_pattern" then (pattern.field? "left").getD pattern else pattern

/-- The props of a component. -/
def propsOf (c : Candidate) : ComponentProps :=
  let parameters := parametersOf c.function
  let componentType := (nonEmpty? c.typeText).bind componentTypeProps?
  let ref := forwardedRef? src c parameters
  match parameters with
  | [] => { pattern := .absent, bindings := ref.toList, typeText := componentType }
  | first :: _ =>
    let pattern := patternOf first
    let typeText := (nonEmpty? (annotationOf src first)).or componentType
    if pattern.kind == "identifier" then
      { pattern := .identifier, bindings := ref.toList, identifier := some (src.text pattern),
        typeText }
    else
      let pattern := withoutDefault pattern
      if pattern.kind == "object_pattern" then
        { pattern := .destructured
          bindings := pattern.namedChildren.filterMap (boundProp? src) ++ ref.toList
          typeText }
      else { pattern := .absent, typeText }

end Sveltify.Component
