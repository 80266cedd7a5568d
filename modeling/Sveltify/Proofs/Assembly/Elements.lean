import Mathlib.Data.List.Forall2
import Mathlib.Data.List.Nodup
import Sveltify.Proofs.Analysis.TopLevel
import Sveltify.Proofs.Assembly.Markup
import Sveltify.Proofs.Expression.ReactFree

namespace Sveltify.Assembly

open Analysis Component Expression Node Scope Svelte Text
open Render (ElementHead EventBinding RenderNode innerExpression?)

/-!
# The attributes of an element

An element has attributes and events. They are taken in source order, and each of them is shown by
attributes of the markup, or is left as a placeholder before the element. An event is shown by
nothing if it sets a cell that a property of the element is bound to.

* `SetsFromTarget`: a handler that only sets a cell to a property of the element;
* `Controlled`: a property that is bound to a cell, with the event that sets the cell;
* `Shown`: what an attribute or an event is shown by;
* `Outcomes`, `IsMarkup`: markup of an element in which each of them is shown or left;
* `binding_mem`: a bound property is shown by its binding;
* `element_keeps_attributes`: the markup of an element is of this kind;
* `style_object_kept_whole`: a style object that is not shown entry by entry.
-/

variable {src : Source} {model : Model}

/-! ### Fields bound to state -/

/-- The expression that the body of a function consists of, also as the only statement of a
block. -/
inductive IsSoleExpression (e : Node) : Node → Prop
  | expression (hkind : e.kind ≠ "statement_block") : IsSoleExpression e e
  | block {body statement : Node} (hkind : body.kind = "statement_block")
      (honly : body.namedChildren = [statement])
      (hstatement : statement.kind = "expression_statement")
      (he : statement.firstNamed? = some e) : IsSoleExpression e body

/-- A handler `e => setter(e.target.property)`, up to blanks, parentheses and the braces of its
body. -/
inductive SetsFromTarget (src : Source) (setter property : String) (handler : Node) : Prop
  | intro {parameter body e callee argument : Node}
      (isFunction : handler.withoutParens.isFunction = true)
      (hparameters : parametersOf handler.withoutParens = [parameter])
      (hname : (patternOf parameter).kind = "identifier")
      (hbody : handler.withoutParens.field? "body" = some body)
      (hsole : IsSoleExpression e body)
      (hcall : e.withoutParens.kind = "call_expression")
      (hcallee : e.withoutParens.field? "function" = some callee)
      (hsetter : src.text callee = setter)
      (harguments : Hook.argumentsOf e.withoutParens = [argument])
      (hargument : ∃ access ∈ [".target.", ".currentTarget."], squeeze (src.text argument) =
        src.text (patternOf parameter) ++ access ++ property)

/-- A handler is a function that makes one call. -/
theorem exists_of_handlerCall {handler event call : Node}
    (h : handlerCall? handler = some (event, call)) :
    handler.withoutParens.isFunction = true ∧ ∃ parameter body e,
      parametersOf handler.withoutParens = [parameter] ∧ patternOf parameter = event ∧
      event.kind = "identifier" ∧ handler.withoutParens.field? "body" = some body ∧
      IsSoleExpression e body ∧ e.withoutParens = call := by
  unfold handlerCall? at h
  dsimp only at h
  split at h
  · cases h
  case isFalse hfunction =>
    refine ⟨by simpa using hfunction, ?_⟩
    split at h
    case h_2 => cases h
    case h_1 parameter body hparameters hbody =>
      split at h
      case isFalse => cases h
      case isTrue hname =>
        obtain ⟨e, he, hpair⟩ := Option.map_eq_some_iff.1 h
        obtain ⟨rfl, rfl⟩ := Prod.mk.injEq .. ▸ hpair
        refine ⟨parameter, body, e, hparameters, rfl, by simpa using hname, hbody, ?_, rfl⟩
        split at he
        -- The body is the call.
        case isFalse hkind =>
          cases he
          exact .expression (by simpa using hkind)
        -- The body is a block with the call as its only statement.
        case isTrue hkind =>
          split at he
          case h_2 => cases he
          case h_1 statement honly =>
            split at he
            case isFalse => cases he
            case isTrue hstatement =>
              exact .block (by simpa using hkind) honly (by simpa using hstatement) he

/-- The test for a setting handler is right. -/
theorem setsFromTarget_of_true {setter property : String} {handler : Node}
    (h : setsFromTarget src setter property handler = true) :
    SetsFromTarget src setter property handler := by
  unfold setsFromTarget at h
  split at h
  case h_1 => cases h
  case h_2 event call hhandler =>
    obtain ⟨hfunction, parameter, body, e, hparameters, rfl, hname, hbody, hsole, rfl⟩ :=
      exists_of_handlerCall hhandler
    dsimp only at h
    rw [Bool.and_eq_true, Bool.and_eq_true] at h
    obtain ⟨⟨hcall, hsetter⟩, harguments⟩ := h
    obtain ⟨callee, hcallee, hsetter⟩ := (Option.any_eq_true _ _).1 hsetter
    split at harguments
    case h_2 => cases harguments
    case h_1 argument honly =>
      refine .intro hfunction hparameters hname hbody hsole (by simpa using hcall) hcallee
        (by simpa using hsetter) honly ?_
      simpa [toString, or_comm, String.append_assoc] using harguments

/-- The input type that an element is written with. -/
def inputTypeOf (src : Source) (h : ElementHead) : Option String :=
  fixedAttribute? src h.attributes "type"

/-- A property of an element is bound to a cell, which an event sets to the property. -/
structure Controlled (src : Source) (model : Model) (h : ElementHead) (property : String)
    (cell : StateBinding) (e : EventBinding) : Prop where
  bindable : property ∈ bindableProperties h.tag (inputTypeOf src h)
  found : control? src model h property = some (cell, e)

namespace Controlled

variable {h : ElementHead} {property : String} {cell : StateBinding} {e : EventBinding}

/-- Only two properties can be controlled. -/
theorem property_eq (hc : Controlled src model h property cell e) :
    property = "value" ∨ property = "checked" := by
  have := hc.bindable
  unfold bindableProperties at this
  split at this
  · split at this <;> simp_all
  · simp at this

/-- An attribute of that name shows the cell, and the event sets it. -/
theorem exists_attribute (hc : Controlled src model h property cell e) :
    ∃ a ∈ h.attributes, a.name = property ∧ ∃ value, a.value.bind innerExpression? = some value ∧
      model.state.get? (src.text value.withoutParens) = some cell ∧ e ∈ h.events ∧
      ∃ setter, cell.setter = some setter ∧ SetsFromTarget src setter property e.handler := by
  have hfound := hc.found
  simp only [control?, Option.bind_eq_bind, Option.bind_eq_some_iff, Option.pure_def,
    Option.some.injEq, Prod.mk.injEq] at hfound
  obtain ⟨a, ha, value, hvalue, cell, hcell, setter, hsetter, e, he, rfl, rfl⟩ := hfound
  have named := List.find?_some ha
  have sets := List.find?_some he
  rw [Bool.and_eq_true] at named sets
  exact ⟨a, List.mem_of_find?_eq_some ha, eq_of_beq named.1, value,
    Option.bind_eq_some_iff.2 hvalue, hcell, List.mem_of_find?_eq_some he, setter, hsetter,
    setsFromTarget_of_true sets.2⟩

end Controlled

/-- A property is bound to the name of the cell that it shows. -/
theorem lookup_bindings (h : ElementHead) (property : String) :
    (controls src model h (inputTypeOf src h)).bindings.lookup property =
      if property ∈ bindableProperties h.tag (inputTypeOf src h) then
        (control? src model h property).map (·.1.name)
      else none := by
  unfold controls
  -- The look-up finds the first entry of a name; all entries of a name are the same, so that the
  -- statement holds for any list of properties.
  generalize bindableProperties h.tag (inputTypeOf src h) = properties
  induction properties with
  | nil => rfl
  | cons first rest ih =>
    cases hfirst : control? src model h first with
    | none =>
      rw [List.filterMap_cons_none (by rw [hfirst]; rfl), ih]
      by_cases heq : property = first
      · subst heq
        simp [hfirst]
      · simp [heq]
    | some found =>
      rw [List.filterMap_cons_some (by rw [hfirst]; rfl)]
      by_cases heq : property = first
      · subst heq
        simp [hfirst]
      · have other : (property == first) = false := by simpa using heq
        simpa [heq, List.lookup_cons, other] using ih

/-- A property is bound if it is controlled. -/
theorem lookup_eq_some_iff {h : ElementHead} {property name : String} :
    (controls src model h (inputTypeOf src h)).bindings.lookup property = some name ↔
      ∃ cell e, Controlled src model h property cell e ∧ cell.name = name := by
  rw [lookup_bindings]
  constructor
  · intro hname
    split at hname
    case isFalse => cases hname
    case isTrue hbindable =>
      obtain ⟨found, hfound, rfl⟩ := Option.map_eq_some_iff.1 hname
      exact ⟨found.1, found.2, ⟨hbindable, hfound⟩, rfl⟩
  · rintro ⟨cell, e, hc, rfl⟩
    rw [if_pos hc.bindable, hc.found, Option.map_some]

/-- The handlers that binding makes needless. -/
theorem mem_handlers {h : ElementHead} {n : Node} :
    n ∈ (controls src model h (inputTypeOf src h)).handlers ↔
      ∃ property cell e, Controlled src model h property cell e ∧ e.node = n := by
  simp only [controls, List.mem_map, List.mem_filterMap, Option.map_eq_some_iff]
  constructor
  · rintro ⟨-, ⟨property, hproperty, found, hfound, rfl⟩, rfl⟩
    exact ⟨property, found.1, found.2, ⟨hproperty, hfound⟩, rfl⟩
  · rintro ⟨property, cell, e, hc, rfl⟩
    exact ⟨_, ⟨property, hc.bindable, (cell, e), hc.found, rfl⟩, rfl⟩

/-! ### What an attribute is shown by -/

/-- The text of an expression in markup; none if it is refused. -/
def shownText? (src : Source) (model : Model) (n : Node) : Option String :=
  resultOf? (Expression.convert src model [] false n.withoutParens)

/-- The text is that of the expression. -/
theorem yields_expressionText (n : Node) :
    Yields (fun text => shownText? src model n = some text) (expressionText src model n) :=
  yields_withRemarks (forgetful_convert src model [] false n.withoutParens)

/-- The object literal that a style is given by, if it is given by one. -/
def styleLiteral? (a : Render.Attribute) : Option Node :=
  if a.name == "style" && !a.isSpread then
    ((a.value.filter (·.kind != "string")).bind innerExpression?).bind fun e =>
      if e.withoutParens.kind == "object" then some e.withoutParens else none
  else none

/-- The entries of an object are pairs of a key and a value. -/
def AllPairs (object : Node) : Prop := ∀ entry ∈ object.namedChildren, entry.kind = "pair"

/-- The text for the value of a style property. -/
inductive StyleText (src : Source) (model : Model) (property : String) (value : Node) :
    String → Prop
  | literal {text : String} (htext : stringLiteral? src value = some text) :
      StyleText src model property value ("\"" ++ escapeAttribute text ++ "\"")
  | number (hliteral : stringLiteral? src value = none) (hnumber : isStyleNumber src value = true) :
      StyleText src model property value ("\"" ++ styleNumber property (src.text value) ++ "\"")
  | expression {text : String} (hliteral : stringLiteral? src value = none)
      (hnumber : isStyleNumber src value = false) (htext : shownText? src model value = some text) :
      StyleText src model property value ("\x7b" ++ text ++ "\x7d")

/-- The directive for an entry of a style object. -/
inductive IsDirective (src : Source) (model : Model) (pair : Node) : TemplateAttribute → Prop
  | intro {key value : Node} {text : String} (hkey : pair.field? "key" = some key)
      (hvalue : pair.field? "value" = some value)
      (htext : StyleText src model (unquote (src.text key)) value text) :
      IsDirective src model pair
        { kind := .style, name := styleProperty (unquote (src.text key)), value := some text }

/-- The single attribute for an attribute that is not bound and no style object of pairs. -/
inductive IsCounterpart (src : Source) (model : Model) (a : Render.Attribute) :
    TemplateAttribute → Prop
  | spread {value : Node} {text : String} (hspread : a.isSpread = true)
      (hvalue : a.value = some value) (htext : shownText? src model value = some text) :
      IsCounterpart src model a { kind := .spread, value := some text }
  | bare (hspread : a.isSpread = false)
      (hfixed : a.value.filter (·.kind == "string") = none)
      (hcomputed : a.value.bind innerExpression? = none) :
      IsCounterpart src model a { kind := .boolean, name := attributeName a.name }
  | fixed {value : Node} (hspread : a.isSpread = false) (hvalue : a.value = some value)
      (hkind : value.kind = "string") :
      IsCounterpart src model a
        { kind := .static, name := attributeName a.name
          value := some (escapeAttribute (withoutEnds (src.text value))) }
  | computed {value e : Node} {text : String} (hspread : a.isSpread = false)
      (hvalue : a.value = some value) (hkind : value.kind ≠ "string")
      (he : innerExpression? value = some e) (htext : shownText? src model e = some text) :
      IsCounterpart src model a (valued .expression (attributeName a.name) text)

/-- The attribute that binds a property to a cell. -/
def bindingOf (property : String) (cell : StateBinding) : TemplateAttribute :=
  { kind := .bind, name := property, value := some cell.name }

/-- What an attribute or an event of an element is shown by. -/
inductive Shown (src : Source) (model : Model) (h : ElementHead) :
    Item → List TemplateAttribute → Prop
  /-- The event that sets a bound property. -/
  | consumed {e : EventBinding} {property : String} {cell : StateBinding}
      (hcontrolled : Controlled src model h property cell e) : Shown src model h (.event e) []
  /-- Any other event. -/
  | event {e : EventBinding} {text : String}
      (hfree : ∀ property cell, ¬ Controlled src model h property cell e)
      (htext : shownText? src model e.handler = some text) :
      Shown src model h (.event e)
        [valued .event (eventName e.name h.tag (inputTypeOf src h)) text]
  /-- A bound property. -/
  | bound {a : Render.Attribute} {cell : StateBinding} {e : EventBinding}
      (hcontrolled : Controlled src model h a.name cell e) :
      Shown src model h (.plain a) [bindingOf a.name cell]
  /-- A style object of pairs, entry by entry. -/
  | styles {a : Render.Attribute} {object : Node} {directives : List TemplateAttribute}
      (hfree : ∀ cell e, ¬ Controlled src model h a.name cell e)
      (hstyle : styleLiteral? a = some object) (hpairs : AllPairs object)
      (hentries : List.Forall₂ (IsDirective src model) object.namedChildren directives) :
      Shown src model h (.plain a) directives
  /-- Any other attribute. A style object with another entry is one of them. -/
  | single {a : Render.Attribute} {shown : TemplateAttribute}
      (hfree : ∀ cell e, ¬ Controlled src model h a.name cell e)
      (hstyle : ∀ object, styleLiteral? a = some object → ¬ AllPairs object)
      (hshown : IsCounterpart src model a shown) : Shown src model h (.plain a) [shown]

/-- An entry of a style becomes a directive. -/
theorem yields_styleDirective (pair : Node) :
    Yields (IsDirective src model pair) (styleDirective src model pair) := by
  unfold styleDirective
  split
  case h_2 => exact .throw _
  case h_1 key value hkey hvalue =>
    have directive {text : String}
        (htext : StyleText src model (unquote (src.text key)) value text) :
        IsDirective src model pair
          { kind := .style, name := styleProperty (unquote (src.text key)), value := some text } :=
      .intro (Option.filter_eq_some_iff.1 hkey).1 hvalue htext
    dsimp only
    split
    case h_1 text htext => exact .pure (directive (.literal htext))
    case h_2 hliteral =>
      split
      case isTrue hnumber => exact .pure (directive (.number hliteral hnumber))
      case isFalse hnumber =>
        refine (yields_expressionText value).andThen fun text htext => .pure (directive ?_)
        exact .expression hliteral (by simpa using hnumber) htext

/-- An attribute becomes its counterpart. -/
theorem yields_domAttribute (a : Render.Attribute) :
    Yields (IsCounterpart src model a) (domAttribute src model a) := by
  unfold domAttribute attributeFor
  split
  case isTrue hspread =>
    cases hvalue : a.value with
    | none =>
      intro p shown q hrun
      cases hrun
    | some value =>
      exact (yields_expressionText value).andThen fun text htext =>
        .pure (.spread hspread hvalue htext)
  case isFalse hspread =>
    -- No value and empty braces are the same: both give the name alone.
    have hspread : a.isSpread = false := by simpa using hspread
    cases hvalue : a.value with
    | none => exact .pure (.bare hspread (by simp [hvalue]) (by simp [hvalue]))
    | some value =>
      dsimp only
      split
      case isTrue hkind => exact .pure (.fixed hspread hvalue (by simpa using hkind))
      case isFalse hkind =>
        have hkind : value.kind ≠ "string" := by simpa using hkind
        split
        case h_1 hnone =>
          exact .pure (.bare hspread (by simp [hvalue, hkind]) (by simp [hvalue, hnone]))
        case h_2 e he =>
          exact (yields_expressionText e).andThen fun text htext =>
            .pure (.computed hspread hvalue hkind he htext)

theorem styleObject_eq_some_iff {e object : Node} :
    styleObject? e = some object ↔
      (if e.withoutParens.kind == "object" then some e.withoutParens else none) = some object ∧
        AllPairs object := by
  unfold styleObject? AllPairs
  by_cases hkind : e.withoutParens.kind = "object"
  · simp only [hkind, beq_self_eq_true, Bool.true_and, if_true, Option.some.injEq,
      Option.ite_none_right_eq_some, List.all_eq_true, beq_iff_eq]
    constructor
    · rintro ⟨hpairs, rfl⟩
      exact ⟨rfl, hpairs⟩
    · rintro ⟨rfl, hpairs⟩
      exact ⟨hpairs, rfl⟩
  · simp [hkind]

/-- A style is shown entry by entry. -/
theorem yields_styleDirectives {a : Render.Attribute} (hname : a.name = "style")
    (hspread : a.isSpread = false) {h : ElementHead}
    (hfree : ∀ cell e, ¬ Controlled src model h a.name cell e) :
    Yields (Shown src model h (.plain a)) (styleDirectives src model a) := by
  have given : styleLiteral? a =
      ((a.value.filter (·.kind != "string")).bind innerExpression?).bind fun e =>
        if e.withoutParens.kind == "object" then some e.withoutParens else none :=
    if_pos (by simp [hname, hspread])
  -- A style that is no object of plain pairs is written like any other attribute.
  have whole (hstyle : ∀ object, styleLiteral? a = some object → ¬ AllPairs object) :
      Yields (Shown src model h (.plain a)) (do return [← domAttribute src model a]) :=
    (yields_domAttribute a).andThen fun shown hshown => .pure (.single hfree hstyle hshown)
  unfold styleDirectives
  split
  case h_1 hvalue =>
    refine whole fun object hobject => ?_
    rw [given, hvalue] at hobject
    cases hobject
  case h_2 e he =>
    rw [he, Option.bind_some] at given
    split
    case h_1 object hobject =>
      obtain ⟨hliteral, hpairs⟩ := styleObject_eq_some_iff.1 hobject
      intro p directives q hrun
      exact .styles hfree (given.trans hliteral) hpairs
        (Yields.mapM (fun pair _ => yields_styleDirective pair) hrun)
    case h_2 hnone =>
      refine .bind fun _ => whole fun object hobject hpairs => ?_
      rw [styleObject_eq_some_iff.2 ⟨given.symm.trans hobject, hpairs⟩] at hnone
      cases hnone

/-- Whenever an attribute is not refused, it is shown as it should be. -/
theorem yields_itemMarkup {h : ElementHead} {item : Item}
    (hitem : ∀ e, item = .event e → ∀ e' ∈ h.events, e.node.same e'.node = true → e = e') :
    Yields (Shown src model h item) (itemMarkup src model h item) := by
  show Yields _ (itemAttributes src model h (inputTypeOf src h)
    (controls src model h (inputTypeOf src h)) item)
  cases item with
  | event e =>
    rw [itemAttributes]
    split
    case isTrue hconsumed =>
      -- What is kept of the events to leave out are their nodes.
      obtain ⟨n, hn, hsame⟩ := List.any_eq_true.1 hconsumed
      obtain ⟨property, cell, e', hc, rfl⟩ := mem_handlers.1 hn
      obtain ⟨-, -, -, -, -, -, hevent, -⟩ := hc.exists_attribute
      obtain rfl := hitem e rfl e' hevent hsame
      exact .pure (.consumed hc)
    case isFalse hconsumed =>
      have free property cell : ¬ Controlled src model h property cell e := fun hc =>
        hconsumed (List.any_eq_true.2 ⟨e.node, mem_handlers.2 ⟨property, cell, e, hc, rfl⟩,
          beq_self_eq_true _⟩)
      rw [eventFor, bind_assoc]
      exact (yields_expressionText e.handler).andThen fun text htext => .pure (.event free htext)
  | plain a =>
    rw [itemAttributes]
    cases hlookup : (controls src model h (inputTypeOf src h)).bindings.lookup a.name with
    | some name =>
      obtain ⟨cell, e, hc, rfl⟩ := lookup_eq_some_iff.1 hlookup
      exact .pure (.bound hc)
    | none =>
      have free cell e : ¬ Controlled src model h a.name cell e := fun hc => by
        rw [lookup_eq_some_iff.2 ⟨cell, e, hc, rfl⟩] at hlookup
        cases hlookup
      dsimp only
      split
      case isTrue hstyle =>
        rw [Bool.and_eq_true] at hstyle
        exact yields_styleDirectives (eq_of_beq hstyle.1) (by simpa using hstyle.2) free
      case isFalse hstyle =>
        have none : styleLiteral? a = none := if_neg hstyle
        refine (yields_domAttribute a).andThen fun shown hshown => .pure (.single free ?_ hshown)
        intro object hobject
        rw [none] at hobject
        cases hobject

/-! ### All attributes -/

/-- What becomes of an attribute: attributes of the markup, or a placeholder before the element. -/
inductive Outcome where
  | shown (attributes : List TemplateAttribute)
  | left (p : Placeholder)

namespace Outcome

/-- The attributes of the markup. -/
def attributes : Outcome → List TemplateAttribute
  | .shown as => as
  | .left _ => []

/-- The placeholder before the element. -/
def before : Outcome → List TemplateNode
  | .shown _ => []
  | .left p => [.placeholder p]

end Outcome

/-- The outcome for a node, given whether it is refused: a placeholder that keeps the node and the
reason, or else attributes of which `Q` holds. -/
inductive Fits (src : Source) (n : Node) (Q : List TemplateAttribute → Prop) :
    Option Refusal → Outcome → Prop
  | shown {as : List TemplateAttribute} (h : Q as) : Fits src n Q none (.shown as)
  | left {r : Refusal} {p : Placeholder} (h : leftoverIn p = leftoverOf src n "" r.message) :
      Fits src n Q (some r) (.left p)

theorem Fits.mono {n : Node} {Q R : List TemplateAttribute → Prop} {f : Option Refusal}
    {o : Outcome} (ho : Fits src n Q f o) (h : ∀ as, Q as → R as) : Fits src n R f o := by
  cases ho with
  | shown has => exact .shown (h _ has)
  | left hp => exact .left hp

/-- The placeholders and attributes that outcomes amount to. -/
def gathered (outcomes : List Outcome) : Attributes where
  before := outcomes.flatMap Outcome.before
  attributes := outcomes.flatMap Outcome.attributes

/-- One item more that is shown. -/
theorem gathered_shown (outcomes : List Outcome) (as : List TemplateAttribute) :
    gathered (outcomes ++ [.shown as]) =
      { gathered outcomes with attributes := (gathered outcomes).attributes ++ as } := by
  simp [gathered, Outcome.before, Outcome.attributes]

/-- One item more that is left. -/
theorem gathered_left (outcomes : List Outcome) (p : Placeholder) :
    gathered (outcomes ++ [.left p]) =
      { gathered outcomes with before := (gathered outcomes).before ++ [.placeholder p] } := by
  simp [gathered, Outcome.before, Outcome.attributes]

/-- Adding the attributes for a node adds its outcome. -/
theorem ends_addOutcome {f : Option Refusal} {c : Bool} {Q : List TemplateAttribute → Prop}
    (n : Node) {build : Assembling (List TemplateAttribute)} (hbuild : Ends f c Q build)
    (outcomes : List Outcome) :
    Ends none c (fun a => ∃ o, Fits src n Q f o ∧ a = gathered (outcomes ++ [o]))
      (addAttributes src n build (gathered outcomes)) := by
  have shown : Ends f c (fun a => ∃ as, Q as ∧ a = gathered (outcomes ++ [.shown as])) (do
      return { gathered outcomes with
        attributes := (gathered outcomes).attributes ++ (← build) }) :=
    hbuild.map fun as has => ⟨as, has, (gathered_shown outcomes as).symm⟩
  refine shown.orElse ?_ ?_
  · rintro rfl a ⟨as, has, rfl⟩
    exact ⟨.shown as, .shown has, rfl⟩
  · rintro r rfl
    refine (ends_leave n r.message r.construct "").map fun p hp => ?_
    exact ⟨.left p, .left hp, (gathered_left outcomes p).symm⟩

/-- Adding the attributes for a list of nodes adds their outcomes, one after the other. -/
theorem ends_addOutcomes {γ : Type} {node : γ → Node} {f : γ → Option Refusal} {c : γ → Bool}
    {Q : γ → List TemplateAttribute → Prop} {build : γ → Assembling (List TemplateAttribute)}
    (hbuild : ∀ b, Ends (f b) (c b) (Q b) (build b)) (l : List γ) :
    Ends none (l.all c)
      (fun a => ∃ outcomes, a = gathered outcomes ∧
        List.Forall₂ (fun b => Fits src (node b) (Q b) (f b)) l outcomes)
      (l.foldlM (fun done b => addAttributes src (node b) (build b) done) {}) := by
  let added (done : List γ) (a : Attributes) : Prop := ∃ outcomes, a = gathered outcomes ∧
    List.Forall₂ (fun b => Fits src (node b) (Q b) (f b)) done outcomes
  have start : added [] {} := ⟨[], rfl, .nil⟩
  refine Ends.foldlM (I := added) (fun done a b ha => ?_) l start
  obtain ⟨outcomes, rfl, hfit⟩ := ha
  refine (ends_addOutcome (node b) (hbuild b) outcomes).mono (fun h => h) ?_
  rintro a ⟨o, ho, rfl⟩
  exact ⟨outcomes ++ [o], rfl, List.rel_append hfit (.cons ho .nil)⟩

/-- The outcomes for the attributes and events of an element, in source order. -/
def Outcomes (src : Source) (model : Model) (h : ElementHead) : List Outcome → Prop :=
  List.Forall₂ (fun item => Fits src item.node (Shown src model h item)
    (refusalOf (itemMarkup src model h item))) (itemsOf h)

/-- A ref that is no name is left as a placeholder. -/
def IsCallbackRef (src : Source) (e : Node) (n : TemplateNode) : Prop :=
  ∃ p, n = .placeholder p ∧ leftoverIn p = leftoverOf src e "" callbackRef

/-- The attribute that binds a ref. -/
def boundRef (name : String) : TemplateAttribute :=
  { kind := .bind, name := "this", value := some name }

/-- Every item of an element has an outcome. -/
theorem ends_elementOutcomes {h : ElementHead}
    (hshown : ∀ item ∈ itemsOf h, Yields (Shown src model h item) (itemMarkup src model h item)) :
    Ends none (elementComplete src model h)
      (fun a => ∃ outcomes callbacks, Outcomes src model h outcomes ∧
        List.Forall₂ (IsCallbackRef src) h.refExpression.toList callbacks ∧
        a = { before := outcomes.flatMap Outcome.before ++ callbacks
              attributes := outcomes.flatMap Outcome.attributes ++ h.ref.toList.map boundRef })
      (elementAttributes src model h) := by
  -- The steps are made for any item; what it is shown by is known for those of the element.
  have item (i : Item) : Ends (refusalOf (itemMarkup src model h i))
      (isComplete (itemMarkup src model h i)) (fun as => i ∈ itemsOf h → Shown src model h i as)
      (itemMarkup src model h i) :=
    (plain_itemAttributes _ _ _ _).steady.ends fun _ _ _ hrun hi => hshown i hi hrun
  have callback (e : Node) : Ends none true (IsCallbackRef src e) (do
      return TemplateNode.placeholder (← leave src e callbackRef (some "ref") "")) :=
    (ends_leave e callbackRef (some "ref") "").map fun p hp => ⟨p, rfl, hp⟩
  have callbacks := Ends.mapM_none (l := h.refExpression.toList) fun e _ => callback e
  rw [List.all_eq_true.2 fun _ _ => rfl] at callbacks
  rw [← Bool.and_true (elementComplete src model h)]
  refine (ends_addOutcomes item (itemsOf h)).andThen fun a ha =>
    callbacks.map fun placeholders hplaceholders => ?_
  obtain ⟨outcomes, rfl, hfit⟩ := ha
  refine ⟨outcomes, placeholders, ?_, hplaceholders, rfl⟩
  exact ((List.forall₂_and_left _ _).2 ⟨fun _ hi => hi, hfit⟩).imp fun i o h =>
    h.2.mono fun as has => has h.1

/-- Markup of an element with these outcomes. The placeholders stand before the element, that of a
callback ref at their end. The name of a ref is bound behind the other attributes. -/
def IsMarkup (src : Source) (h : ElementHead) (outcomes : List Outcome) (ns : List TemplateNode) :
    Prop :=
  ∃ callbacks content, List.Forall₂ (IsCallbackRef src) h.refExpression.toList callbacks ∧
    ns = outcomes.flatMap Outcome.before ++ callbacks ++
      [.element h.tag (outcomes.flatMap Outcome.attributes ++ h.ref.toList.map boundRef) content
        (voidElements.contains h.tag)]

/-- So it has in the markup of the element. -/
theorem ends_elementNode {h : ElementHead} (children : List RenderNode)
    (hshown : ∀ item ∈ itemsOf h, Yields (Shown src model h item) (itemMarkup src model h item)) :
    Ends none (nodeComplete src model (.element h children))
      (fun ns => ∃ outcomes, Outcomes src model h outcomes ∧ IsMarkup src h outcomes ns)
      (nodeMarkup src model (.element h children)) := by
  rw [nodeMarkup, nodeComplete]
  refine Ends.orElse (f := none) ?_ (fun _ _ h => h) fun _ h => by cases h
  refine (ends_elementOutcomes hshown).andThen fun a ha =>
    (ends_nodesMarkup children).map fun content _ => ?_
  obtain ⟨outcomes, callbacks, houtcomes, hcallbacks, rfl⟩ := ha
  exact ⟨outcomes, houtcomes, callbacks, content, hcallbacks, rfl⟩

/-- A bound property is shown, and by nothing but its binding. -/
theorem binding_mem {h : ElementHead} {outcomes : List Outcome}
    (houtcomes : Outcomes src model h outcomes) {property : String} {cell : StateBinding}
    {e : EventBinding} (hc : Controlled src model h property cell e) :
    bindingOf property cell ∈ outcomes.flatMap Outcome.attributes := by
  obtain ⟨a, ha, rfl, -⟩ := hc.exists_attribute
  have hitem : Item.plain a ∈ itemsOf h := by
    rw [itemsOf, List.mem_mergeSort]
    exact List.mem_append_left _ (List.mem_map_of_mem ha)
  -- The binding takes no converted text, so it cannot be refused.
  have built : itemMarkup src model h (.plain a) = pure [bindingOf a.name cell] := by
    show itemAttributes src model h (inputTypeOf src h) (controls src model h (inputTypeOf src h))
      (.plain a) = _
    rw [itemAttributes, lookup_eq_some_iff.2 ⟨cell, e, hc, rfl⟩]
    rfl
  obtain ⟨o, ho, hfit⟩ := (exists_of_forall₂ houtcomes).1 _ hitem
  refine List.mem_flatMap.2 ⟨o, ho, ?_⟩
  have accepted : refusalOf (itemMarkup src model h (.plain a)) = none := by
    rw [built]
    rfl
  rw [accepted] at hfit
  cases hfit with
  | shown hshown =>
    cases hshown with
    | bound hc' =>
      obtain rfl : cell = _ := congrArg Prod.fst (Option.some.inj (hc.found.symm.trans hc'.found))
      exact List.mem_cons_self
    | styles hfree => exact absurd hc (hfree cell e)
    | single hfree => exact absurd hc (hfree cell e)

/-- Items stand in source order. -/
theorem pairwise_itemsOf {h : ElementHead}
    (hdistinct : (h.attributes.map (·.node.start) ++ h.events.map (·.node.start)).Nodup) :
    (itemsOf h).Pairwise fun a b => a.node.start < b.node.start := by
  have sorted : (itemsOf h).Pairwise fun a b => decide (a.node.start ≤ b.node.start) = true :=
    List.pairwise_mergeSort (by simp only [decide_eq_true_eq]; omega)
      (by simp only [Bool.or_eq_true, decide_eq_true_eq]; omega) _
  have distinct : ((itemsOf h).map fun i => i.node.start).Nodup := by
    refine (((List.mergeSort_perm _ _).map _).nodup_iff).2 ?_
    simpa [List.map_append, Function.comp_def, Item.node] using hdistinct
  -- Sorting leaves offsets in order, and no two of them are the same.
  refine (sorted.and (List.pairwise_map.1 distinct)).imp fun h => ?_
  simp only [decide_eq_true_eq] at h
  omega

/-- Events at distinct offsets that are attributes of one tree are told apart by their nodes. -/
theorem event_unique {tree : Node} {h : ElementHead}
    (hevents : ∀ e ∈ h.events, e.node ∈ tree.numbered.preorder)
    (hdistinct : (h.events.map (·.node.start)).Nodup) {e e' : EventBinding} (he : e ∈ h.events)
    (he' : e' ∈ h.events) (hsame : e.node.same e'.node = true) : e = e' := by
  have node : e.node = e'.node :=
    List.inj_on_of_nodup_map (nodup_index_numbered tree) (hevents e he) (hevents e' he')
      (eq_of_beq hsame)
  exact List.inj_on_of_nodup_map hdistinct he he' (congrArg Node.start node)

/-- **Attributes.** The attributes and events of an element whose nodes are at distinct offsets are
taken in the order of these. In the markup of the element, which there is unless the tree lacks a
part, each has its outcome in that order. If it is refused, it is left as one placeholder before the
element; else it is shown, a style object entry by entry if all its entries are pairs. An event is
shown by nothing only if its handler is `e => setter(e.target.property)`, for the setter of a cell
of state to which the markup binds the property, `value` or `checked`. -/
theorem element_keeps_attributes {tree : Node} {h : ElementHead}
    (hevents : ∀ e ∈ h.events, e.node ∈ tree.numbered.preorder)
    (hdistinct : (h.attributes.map (·.node.start) ++ h.events.map (·.node.start)).Nodup)
    (children : List RenderNode) :
    (itemsOf h).Perm (h.attributes.map .plain ++ h.events.map .event) ∧
    (itemsOf h).Pairwise (fun a b => a.node.start < b.node.start) ∧
    Ends none (nodeComplete src model (.element h children))
      (fun ns => ∃ outcomes, Outcomes src model h outcomes ∧ IsMarkup src h outcomes ns ∧
        ∀ e, Shown src model h (.event e) [] → ∃ property cell setter,
          (property = "value" ∨ property = "checked") ∧
          bindingOf property cell ∈ outcomes.flatMap Outcome.attributes ∧
          (∃ name, model.state.get? name = some cell) ∧ cell.setter = some setter ∧
          SetsFromTarget src setter property e.handler)
      (nodeMarkup src model (.element h children)) := by
  have distinct := (List.nodup_append.1 hdistinct).2.1
  have shown (item : Item) (hitem : item ∈ itemsOf h) :
      Yields (Shown src model h item) (itemMarkup src model h item) := by
    refine yields_itemMarkup ?_
    rintro e rfl e' he' hsame
    have he : e ∈ h.events := by
      rw [itemsOf, List.mem_mergeSort] at hitem
      simpa using hitem
    exact event_unique hevents distinct he he' hsame
  refine ⟨List.mergeSort_perm _ _, pairwise_itemsOf hdistinct, ?_⟩
  refine (ends_elementNode children shown).mono (fun h => h) ?_
  rintro ns ⟨outcomes, houtcomes, hmarkup⟩
  refine ⟨outcomes, houtcomes, hmarkup, fun e he => ?_⟩
  cases he with
  | @consumed _ property cell hc =>
    obtain ⟨-, -, -, value, -, hcell, -, setter, hsetter, hsets⟩ := hc.exists_attribute
    exact ⟨property, cell, setter, hc.property_eq, binding_mem houtcomes hc, ⟨_, hcell⟩, hsetter,
      hsets⟩

section Sample

/-- A field that shows a cell, and an event that sets the cell. -/
def fieldTree : Node :=
  plain "jsx_self_closing_element" 54 109
    [plain "identifier" 55 60 [] (some "name"),
     plain "jsx_attribute" 61 70
      [plain "property_identifier" 61 66 [],
       plain "jsx_expression" 67 70 [plain "identifier" 68 69 []]],
     plain "jsx_attribute" 71 107
      [plain "property_identifier" 71 79 [],
       plain "jsx_expression" 80 107 [plain "arrow_function" 81 106
        [plain "identifier" 81 82 [] (some "parameter"),
         plain "call_expression" 86 106
          [plain "identifier" 86 90 [] (some "function"),
           plain "arguments" 90 106 [plain "member_expression" 91 105 []] (some "arguments")]
          (some "body")]]]]

/-- A component that shows the field. -/
def fieldModule : Module :=
  Analysis.appModule ("function App() \x7b const [x, setX] = useState(); " ++
      "return <input value=\x7bx\x7d onChange=\x7be => setX(e.target.value)\x7d/>; \x7d")
    [sampleCell 23, plain "return_statement" 47 110 [fieldTree]]

/-- The element that a piece of a render tree is. -/
def elementOf? : RenderNode → Option (ElementHead × List RenderNode)
  | .element h children => some (h, children)
  | _ => none

theorem eq_element {n : RenderNode} {found : ElementHead × List RenderNode}
    (h : elementOf? n = some found) : n = .element found.1 found.2 := by
  cases n with
  | element h' children =>
    cases h
    rfl
  | _ => cases h

/-- The field is bound to the cell. -/
theorem element_keeps_attributes_of_field : ∃ model reports h children,
    analyze fieldModule {} [] = .ok model reports ∧ model.renderTree = some (.element h children) ∧
    ∃ ns q, nodeMarkup fieldModule.source model (.element h children) {} = .ok ns q ∧
      ∃ attributes content, TemplateNode.element "input" attributes content true ∈ ns ∧
        { kind := .bind, name := "value", value := some "x" } ∈ attributes := by
  let src := fieldModule.source
  have test : endsIn (analyze fieldModule {}) [] (fun model _ =>
      (model.renderTree.bind elementOf?).any fun found => decide (found.1.tag = "input" ∧
        (∀ e ∈ found.1.events, e.node ∈ fieldModule.root.preorder) ∧
        (found.1.attributes.map (·.node.start) ++ found.1.events.map (·.node.start)).Nodup ∧
        "value" ∈ bindableProperties found.1.tag (inputTypeOf src found.1) ∧
        (control? src model found.1 "value").any (·.1.name == "x") = true ∧
        (found.1.attributes.map Item.plain ++ found.1.events.map Item.event).all
          (fun item => isComplete (itemMarkup src model found.1 item)) = true ∧
        nodesComplete src model found.2 = true)) = true := by
    decide +kernel
  obtain ⟨model, reports, hmodel, hany⟩ := exists_ok_of_endsIn test
  obtain ⟨found, hfound, hchecked⟩ := (Option.any_eq_true _ _).1 hany
  obtain ⟨htag, hevents, hdistinct, hbindable, hcontrol, hitems, hcontent⟩ :=
    of_decide_eq_true hchecked
  obtain ⟨n, hn, hfound⟩ := Option.bind_eq_some_iff.1 hfound
  obtain rfl := eq_element hfound
  obtain ⟨control, hcontrol, hname⟩ := (Option.any_eq_true _ _).1 hcontrol
  have complete : nodeComplete src model (.element found.1 found.2) = true := by
    rw [nodeComplete, hcontent, Bool.and_true, elementComplete, itemsOf,
      (List.mergeSort_perm _ _).all_eq, hitems]
  obtain ⟨-, -, hends⟩ := @element_keeps_attributes src model _ _ hevents hdistinct found.2
  rw [complete] at hends
  obtain ⟨ns, q, hrun, outcomes, houtcomes, hmarkup, -⟩ := hends.exists_ok {}
  obtain ⟨callbacks, content, -, rfl⟩ := hmarkup
  have controlled : Controlled src model found.1 "value" control.1 control.2 :=
    ⟨hbindable, hcontrol⟩
  have bound := binding_mem houtcomes controlled
  rw [bindingOf, eq_of_beq hname] at bound
  refine ⟨model, reports, found.1, found.2, hmodel, hn, _, q, hrun,
    outcomes.flatMap Outcome.attributes ++ found.1.ref.toList.map boundRef, content, ?_,
    List.mem_append_left _ bound⟩
  rw [htag]
  exact List.mem_append_right _ List.mem_cons_self

/-- A component that shows a paragraph with a style of one name. -/
def styledModule : Module :=
  Analysis.appModule "function App() \x7b return <p style=\x7b\x7b color \x7d\x7d/>; \x7d"
    [plain "return_statement" 17 47 [plain "jsx_self_closing_element" 24 46
      [plain "identifier" 25 26 [] (some "name"),
       plain "jsx_attribute" 27 44
        [plain "property_identifier" 27 32 [],
         plain "jsx_expression" 33 44 [plain "object" 34 43
          [plain "shorthand_property_identifier" 36 41 []]]]]]]

/-- The attributes that a piece of markup is written with. -/
def writtenAttributes : TemplateNode → List TemplateAttribute
  | .element _ attributes _ _ => attributes
  | _ => []

/-- The style is given by an object literal, and yet there is no directive for its entry. -/
theorem style_object_kept_whole : ∃ model reports h children,
    analyze styledModule {} [] = .ok model reports ∧ model.renderTree = some (.element h children) ∧
    (∃ a ∈ h.attributes, (styleLiteral? a).isSome = true) ∧
    endsIn (nodeMarkup styledModule.source model (.element h children)) {} (fun ns _ =>
      ns.flatMap writtenAttributes ==
        [{ kind := .expression, name := "style", value := some "\x7b color \x7d" }]) = true := by
  let src := styledModule.source
  have test : endsIn (analyze styledModule {}) [] (fun model _ =>
      (model.renderTree.bind elementOf?).any fun found => decide (
        (∃ a ∈ found.1.attributes, (styleLiteral? a).isSome = true) ∧
        endsIn (nodeMarkup src model (.element found.1 found.2)) {} (fun ns _ =>
          ns.flatMap writtenAttributes ==
            [{ kind := .expression, name := "style", value := some "\x7b color \x7d" }]) =
          true)) = true := by
    decide +kernel
  obtain ⟨model, reports, hmodel, hany⟩ := exists_ok_of_endsIn test
  obtain ⟨found, hfound, hchecked⟩ := (Option.any_eq_true _ _).1 hany
  obtain ⟨n, hn, hfound⟩ := Option.bind_eq_some_iff.1 hfound
  obtain rfl := eq_element hfound
  obtain ⟨hliteral, hmarkup⟩ := of_decide_eq_true hchecked
  exact ⟨model, reports, found.1, found.2, hmodel, hn, hliteral, hmarkup⟩

end Sample

end Sveltify.Assembly
