import Sveltify.Analysis.Component
import Sveltify.Proofs.Assembly.Placeholders
import Sveltify.Proofs.Scope.Binders

namespace Sveltify.Analysis

open Component Scope Text

/-!
# The names of destructured props

A component that takes its props apart by an object pattern sees them under the names that the
pattern binds. One prop is noted for each element of the pattern, with one name: so an element that
takes a prop apart further is known by its key, and what it binds is not known.

* `IsElement`, `Destructures`: an object pattern that receives the props;
* `exposedName`: the name that is noted for an element;
* `ownNames_of_destructures`: these are the names under which the props are visible;
* `destructured_names`: when they are the names that the pattern binds, and that nothing else is
  declared at the start of the body;
* `nested_prop_unknown`: a prop that is taken apart further.
-/

variable {src : Source}

/-! ### Object patterns -/

/-- An element of an object pattern: a name, a name with a default value, a key with a pattern of
any depth, or the rest under a name. -/
inductive IsElement (e : Node) : Prop
  | name (h : e.kind = "shorthand_property_identifier_pattern")
  | withDefault (h : e.kind = "object_assignment_pattern") (left : Node)
      (hleft : e.field? "left" = some left)
      (hname : left.kind = "shorthand_property_identifier_pattern")
  | pair (h : e.kind = "pair_pattern") (value : Node) (hvalue : e.field? "value" = some value)
  | rest (h : e.kind = "rest_pattern") (inner : Node) (hinner : e.namedChildren = [inner])
      (hname : inner.kind = "identifier")

/-- The component receives its props by the object pattern `pattern`, which may have a type and a
default value. The names in it are no empty texts. -/
structure Destructures (src : Source) (c : Candidate) (pattern : Node) : Prop where
  first : (parametersOf c.function).head?.map (fun p => withoutDefault (patternOf p)) = some pattern
  kind : pattern.kind = "object_pattern"
  elements : ∀ e ∈ pattern.namedChildren, IsElement e
  named : ∀ x ∈ boundNames src pattern, x ≠ ""

/-- The key of an element, without quotation marks. -/
def keyText (src : Source) (e : Node) : String :=
  match e.field? "key" with
  | some key => unquote (src.text key)
  | none => src.text e

/-- The name that is noted for an element: the one that it binds, or the key where it binds several
names or none. -/
def exposedName (src : Source) (e : Node) : String :=
  match boundNames src e with
  | [x] => x
  | _ => keyText src e

/-- One bound name is the exposed one. -/
theorem exposedName_of_one {e : Node} {x : String} (h : boundNames src e = [x]) :
    exposedName src e = x := by
  rw [exposedName, h]

/-- Else it is the key. -/
theorem exposedName_of_not_one {e : Node} (h : (boundNames src e).length ≠ 1) :
    exposedName src e = keyText src e := by
  unfold exposedName
  split
  case h_1 x hx => simp [hx] at h
  case h_2 => rfl

/-! ### Elements -/

theorem visibleName_of_none {p : PropBinding} (h : p.localName = none) :
    p.visibleName = p.name := by
  rw [PropBinding.visibleName, h]
  rfl

/-- A prop with a name of its own is visible under that name. -/
theorem visibleName_of_alias {p : PropBinding} {x : String} (hx : x ≠ "")
    (h : p.localName = if x == p.name then none else some x) : p.visibleName = x := by
  by_cases same : x = p.name
  · rw [visibleName_of_none (by simp [h, same]), same]
  · rw [PropBinding.visibleName, h, if_neg (by simpa using same), nonEmpty?]
    · rfl
    · simpa using hx

/-- No element is a forwarded ref. -/
theorem isBindable_of_boundProp {e : Node} {p : PropBinding} (h : boundProp? src e = some p) :
    p.isBindable = false := by
  unfold boundProp? at h
  split at h <;> cases h <;> rfl

/-- Each element is noted as one prop, under its exposed name. -/
theorem visibleName_boundProp {e : Node} (h : IsElement e)
    (hnamed : ∀ x ∈ boundNames src e, x ≠ "") :
    (boundProp? src e).map (·.visibleName) = some (exposedName src e) := by
  cases h with
  | name h =>
    have names : boundNames src e = [src.text e] := boundNames_name (.inr h)
    simp only [boundProp?, h, Option.map_some]
    rw [visibleName_of_none rfl, exposedName_of_one names]
  | withDefault h left hleft hname =>
    have role : patternRole? e.kind = some "left" := by rw [h]; rfl
    have names : boundNames src e = [src.text left] := by
      rw [boundNames_role role, hleft]
      exact boundNames_name (.inr hname)
    simp only [boundProp?, h, hleft, Option.map_some]
    rw [visibleName_of_none rfl, exposedName_of_one names]
    rfl
  | pair h value hvalue =>
    have names : boundNames src e = boundNamesOf src (e.field? "value") :=
      boundNames_role (by rw [h]; rfl)
    simp only [boundProp?, h, Option.map_some, ← names]
    -- The key is kept, unless the pattern of the pair binds exactly one name.
    rcases hnames : boundNames src e with _ | ⟨x, _ | ⟨y, others⟩⟩
    · rw [exposedName_of_not_one (by simp [hnames])]
      exact congrArg some (visibleName_of_none rfl)
    · rw [exposedName_of_one hnames]
      exact congrArg some (visibleName_of_alias (hnamed x (by simp [hnames])) rfl)
    · rw [exposedName_of_not_one (by simp [hnames])]
      exact congrArg some (visibleName_of_none rfl)
  | rest h inner hinner hname =>
    have names : boundNames src e = [src.text inner] := by
      rw [boundNames_compound (by rw [h]; decide), hinner, List.flatMap_singleton]
      exact boundNames_name (.inl hname)
    simp only [boundProp?, h, Option.map_some, names]
    rw [visibleName_of_none rfl, exposedName_of_one names]
    rfl

/-! ### The props of a component -/

/-- The names under which props are visible, forwarded refs left out. -/
def ownNames (props : ComponentProps) : List String :=
  (props.bindings.filter fun p => !p.isBindable).map (·.visibleName)

/-- The names under which forwarded refs are visible. -/
def forwardedNames (props : ComponentProps) : List String :=
  (props.bindings.filter (·.isBindable)).map (·.visibleName)

/-- A forwarded ref can be bound. -/
theorem isBindable_of_forwardedRef {c : Candidate} {parameters : List Node} {p : PropBinding}
    (h : forwardedRef? src c parameters = some p) : p.isBindable = true := by
  unfold forwardedRef? at h
  split at h
  · dsimp only at h
    split at h
    · cases h
      rfl
    · cases h
  · cases h

section Destructured

variable {c : Candidate} {pattern : Node}

/-- What is read from a pattern. -/
theorem propsOf_of_destructures (h : Destructures src c pattern) :
    (propsOf src c).pattern = .destructured ∧ (propsOf src c).identifier = none ∧
      (propsOf src c).bindings = pattern.namedChildren.filterMap (boundProp? src) ++
        (forwardedRef? src c (parametersOf c.function)).toList := by
  obtain ⟨parameter, hhead, rfl⟩ := Option.map_eq_some_iff.1 h.first
  obtain ⟨others, hparameters⟩ := List.head?_eq_some_iff.1 hhead
  have notName : (patternOf parameter).kind ≠ "identifier" := by
    intro hname
    have := h.kind
    simp [withoutDefault, hname] at this
  unfold propsOf
  simp [hparameters, notName, h.kind]

/-- Props of the pattern, and a forwarded ref. -/
theorem bindings_parted (h : Destructures src c pattern) :
    ((propsOf src c).bindings.filter fun p => !p.isBindable) =
        pattern.namedChildren.filterMap (boundProp? src) ∧
      (propsOf src c).bindings.filter (·.isBindable) =
        (forwardedRef? src c (parametersOf c.function)).toList := by
  have own : ∀ p ∈ pattern.namedChildren.filterMap (boundProp? src), p.isBindable = false := by
    intro p hp
    obtain ⟨e, -, he⟩ := List.mem_filterMap.1 hp
    exact isBindable_of_boundProp he
  have ref : ∀ p ∈ (forwardedRef? src c (parametersOf c.function)).toList,
      p.isBindable = true := fun p hp => isBindable_of_forwardedRef (Option.mem_toList.1 hp)
  rw [(propsOf_of_destructures h).2.2, List.filter_append, List.filter_append]
  constructor
  · rw [List.filter_eq_self.2 fun p hp => by simp [own p hp],
      List.filter_eq_nil_iff.2 fun p hp => by simp [ref p hp], List.append_nil]
  · rw [List.filter_eq_nil_iff.2 fun p hp => by simp [own p hp], List.filter_eq_self.2 ref,
      List.nil_append]

theorem boundNames_of_destructures (h : Destructures src c pattern) :
    boundNames src pattern = pattern.namedChildren.flatMap (boundNames src) :=
  boundNames_compound (by rw [h.kind]; decide)

/-- Destructured props are visible under the exposed names of the elements. -/
theorem ownNames_of_destructures (h : Destructures src c pattern) :
    ownNames (propsOf src c) = pattern.namedChildren.map (exposedName src) := by
  have visible : ∀ e ∈ pattern.namedChildren,
      (boundProp? src e).map (·.visibleName) = some (exposedName src e) := by
    intro e he
    refine visibleName_boundProp (h.elements e he) fun x hx => h.named x ?_
    rw [boundNames_of_destructures h]
    exact List.mem_flatMap.2 ⟨e, he, hx⟩
  rw [ownNames, (bindings_parted h).1, List.map_filterMap, List.filterMap_congr visible,
    List.filterMap_eq_map']

/-- A body starts with the destructured props and the forwarded ref, all of them reactive. -/
theorem bodyOfProps_of_destructures (h : Destructures src c pattern)
    (contexts : Table ContextDefinition) :
    (bodyOfProps (propsOf src c) contexts).declared =
        ownNames (propsOf src c) ++ forwardedNames (propsOf src c) ∧
      (bodyOfProps (propsOf src c) contexts).reactive =
        ownNames (propsOf src c) ++ forwardedNames (propsOf src c) := by
  have names : (propsOf src c).bindings.map (·.visibleName) =
      ownNames (propsOf src c) ++ forwardedNames (propsOf src c) := by
    rw [ownNames, forwardedNames, (bindings_parted h).1, (bindings_parted h).2, ← List.map_append,
      (propsOf_of_destructures h).2.2]
  simp [bodyOfProps, names, (propsOf_of_destructures h).2.1, nonEmpty?]

/-- The element binds several names or none. -/
def BindsOther (src : Source) (e : Node) : Prop := (boundNames src e).length ≠ 1

instance (e : Node) : Decidable (BindsOther src e) := inferInstanceAs (Decidable (_ ≠ _))

/-- **The names of destructured props.** Each element of the pattern is visible under one name, and
these names, with that of a forwarded ref, are what a body starts with. If each element binds one
name, then they are the names that the pattern binds, in the same order. In general both are the same
names just if every other element has a key that the pattern binds somewhere, and binds names that
are visible by other elements. -/
theorem destructured_names (h : Destructures src c pattern) :
    ownNames (propsOf src c) = pattern.namedChildren.map (exposedName src) ∧
    ((∀ e ∈ pattern.namedChildren, ¬ BindsOther src e) →
      ownNames (propsOf src c) = boundNames src pattern) ∧
    ((∀ x, x ∈ ownNames (propsOf src c) ↔ x ∈ boundNames src pattern) ↔
      ∀ e ∈ pattern.namedChildren, BindsOther src e →
        keyText src e ∈ boundNames src pattern ∧
          ∀ x ∈ boundNames src e, x ∈ ownNames (propsOf src c)) ∧
    ∀ contexts,
      (bodyOfProps (propsOf src c) contexts).declared =
          ownNames (propsOf src c) ++ forwardedNames (propsOf src c) ∧
        (bodyOfProps (propsOf src c) contexts).reactive =
          ownNames (propsOf src c) ++ forwardedNames (propsOf src c) := by
  have own := ownNames_of_destructures h
  have bound := boundNames_of_destructures h
  have one {e : Node} (he : ¬ BindsOther src e) : boundNames src e = [exposedName src e] := by
    obtain ⟨x, hx⟩ := List.length_eq_one_iff.1 (not_not.1 he)
    rw [hx, exposedName_of_one hx]
  refine ⟨own, fun hone => ?_, ⟨fun hsame e he hother => ?_, fun hothers x => ?_⟩,
    bodyOfProps_of_destructures h⟩
  · rw [own, bound, List.flatMap_congr fun e he => one (hone e he), ← List.map_eq_flatMap]
  · refine ⟨(hsame _).1 ?_, fun x hx => (hsame x).2 ?_⟩
    · rw [own, ← exposedName_of_not_one hother]
      exact List.mem_map_of_mem he
    · rw [bound]
      exact List.mem_flatMap.2 ⟨e, he, hx⟩
  · constructor
    · intro hx
      rw [own] at hx
      obtain ⟨e, he, rfl⟩ := List.mem_map.1 hx
      by_cases hother : BindsOther src e
      · rw [exposedName_of_not_one hother]
        exact (hothers e he hother).1
      · rw [bound]
        exact List.mem_flatMap.2 ⟨e, he, by rw [one hother]; exact List.mem_singleton_self _⟩
    · intro hx
      rw [bound] at hx
      obtain ⟨e, he, hxe⟩ := List.mem_flatMap.1 hx
      by_cases hother : BindsOther src e
      · exact (hothers e he hother).2 x hxe
      · rw [one hother, List.mem_singleton] at hxe
        rw [own, hxe]
        exact List.mem_map_of_mem he

end Destructured

section Sample

open Node

/-- A component whose pattern has an element of each form. -/
def fourPropsSource : Source :=
  .ofText "App.jsx" "function App(\x7b a, b = 1, c: d, ...e \x7d) \x7b return <p/>; \x7d"

/-- The pattern of the props. -/
def fourProps : Node :=
  plain "object_pattern" 13 37
    [plain "shorthand_property_identifier_pattern" 15 16 [],
     plain "object_assignment_pattern" 18 23
      [plain "shorthand_property_identifier_pattern" 18 19 [] (some "left"),
       plain "number" 22 23 [] (some "right")],
     plain "pair_pattern" 25 29
      [plain "property_identifier" 25 26 [] (some "key"),
       plain "identifier" 28 29 [] (some "value")],
     plain "rest_pattern" 31 35 [plain "identifier" 34 35 []]]

/-- The component itself. -/
def fourPropsComponent : Candidate :=
  let function := plain "function_declaration" 0 55
    [plain "identifier" 9 12 [] (some "name"),
     plain "formal_parameters" 12 38 [fourProps] (some "parameters"),
     plain "statement_block" 39 55
      [plain "return_statement" 41 53 [Assembly.emptyElement 48 none]] (some "body")]
  { name := "App", function, statement := function, wrappers := [], isDefaultExport := false,
    typeText := none }

/-- Each element binds one name, so these are the names. -/
theorem destructured_names_of_four :
    Destructures fourPropsSource fourPropsComponent fourProps ∧
      (∀ e ∈ fourProps.namedChildren, ¬ BindsOther fourPropsSource e) ∧
      boundNames fourPropsSource fourProps = ["a", "b", "d", "e"] ∧
      ownNames (propsOf fourPropsSource fourPropsComponent) = ["a", "b", "d", "e"] := by
  have elements : ∀ e ∈ fourProps.namedChildren, IsElement e := by
    rw [show fourProps.namedChildren = fourProps.children from rfl]
    refine List.forall_mem_cons.2 ⟨.name rfl, ?_⟩
    refine List.forall_mem_cons.2 ⟨.withDefault rfl _ rfl rfl, ?_⟩
    refine List.forall_mem_cons.2 ⟨.pair rfl _ rfl, ?_⟩
    exact List.forall_mem_singleton.2 (.rest rfl _ rfl rfl)
  have names : boundNames fourPropsSource fourProps = ["a", "b", "d", "e"] := by decide +kernel
  have h : Destructures fourPropsSource fourPropsComponent fourProps :=
    ⟨rfl, rfl, elements, by simp [names]⟩
  have one : ∀ e ∈ fourProps.namedChildren, ¬ BindsOther fourPropsSource e := by decide +kernel
  exact ⟨h, one, names, ((destructured_names h).2.1 one).trans names⟩

/-- A component that takes a prop apart into two names. -/
def nestedPropModule : Module :=
  Assembly.appModule ("function App(\x7b user: \x7b first, last \x7d \x7d) \x7b "
      ++ "const full = first + last; return <p>\x7bfull\x7d\x7blast\x7d</p>; \x7d")
    [plain "formal_parameters" 12 39 [plain "object_pattern" 13 38 [plain "pair_pattern" 15 36
      [plain "property_identifier" 15 19 [] (some "key"),
       plain "object_pattern" 21 36
        [plain "shorthand_property_identifier_pattern" 23 28 [],
         plain "shorthand_property_identifier_pattern" 30 34 []] (some "value")]]]
      (some "parameters")]
    40
    [plain "lexical_declaration" 42 68 [plain "variable_declarator" 48 67
      [plain "identifier" 48 52 [] (some "name"),
       plain "binary_expression" 55 67
        [plain "identifier" 55 60 [] (some "left"),
         plain "identifier" 63 67 [] (some "right")] (some "value")]],
     plain "return_statement" 69 96 [plain "jsx_element" 76 95
      [plain "jsx_opening_element" 76 79 [plain "identifier" 77 78 [] (some "name")]
        (some "open_tag"),
       plain "jsx_expression" 79 85 [plain "identifier" 80 84 []],
       plain "jsx_expression" 85 91 [plain "identifier" 86 90 []],
       plain "jsx_closing_element" 91 95 [plain "identifier" 93 94 [] (some "name")]
        (some "close_tag")]]]

/-- The prop is known by its key alone: a value that is computed from its parts follows no prop, and
the use of a part is reported as unknown. -/
theorem nested_prop_unknown : ∃ model reports,
    analyze nestedPropModule {} [] = .ok model reports ∧
    (parametersOf model.node).flatMap (boundNames nestedPropModule.source) = ["first", "last"] ∧
    ownNames model.props = ["user"] ∧ model.derived.keys = [] ∧
    reports.map (fun r => (r.code, r.construct)) = [(Code.unresolvedReference, some "last")] := by
  have test : endsIn (analyze nestedPropModule {}) [] (fun model reports =>
      (parametersOf model.node).flatMap (boundNames nestedPropModule.source) == ["first", "last"] &&
        ownNames model.props == ["user"] && model.derived.keys == [] &&
        reports.map (fun r => (r.code, r.construct)) ==
          [(Code.unresolvedReference, some "last")]) = true := by
    decide +kernel
  obtain ⟨model, reports, hmodel, hchecked⟩ := exists_ok_of_endsIn test
  simp only [Bool.and_eq_true, beq_iff_eq] at hchecked
  obtain ⟨⟨⟨hbound, hown⟩, hderived⟩, hreports⟩ := hchecked
  exact ⟨model, reports, hmodel, hbound, hown, hderived, hreports⟩

end Sample

end Sveltify.Analysis
