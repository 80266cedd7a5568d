import Sveltify.Proofs.Analysis.SetterSites
import Sveltify.Proofs.Expression.Splice
import Sveltify.Proofs.Expression.Trace

namespace Sveltify.Expression

open Component Scope Analysis Node

/-!
# Converted text is free of React

Nothing that only React understands is copied into converted text.

* `ReactFree`: a node is no markup, no call of a hook of React, no `ref.current` and no setter;
* `replaceOther_none`: what follows when a node is not replaced;
* `Sites`: the uses of setters can be told apart by their spans;
* `leads_convertNoting`: every copied node is free of React;
* `convert_reactFree`: the same of every conversion that yields a text.
-/

variable {src : Source} {model : Model}

/-- A node is nothing that only React understands. -/
structure ReactFree (src : Source) (model : Model) (n : Node) : Prop where
  markup : n.isJsx = false
  hook : n.kind = "call_expression" →
    ∀ hook, Hook.match? src (some n) = .ok (some hook) → hook.kind = .custom
  ref : n.kind = "member_expression" → ∀ object property, n.field? "object" = some object →
    n.field? "property" = some property → object.kind = "identifier" →
    model.refs.contains (src.text object) = true → src.text property ≠ "current"
  setter : isName n = true → n ∈ references src model.node →
    ¬ IsSetter model.state (src.text n)

/-! ### Nodes without replacement -/

/-- A call is looked up among the hooks. -/
theorem match_call {n : Node} (h : n.kind = "call_expression") :
    Hook.match? src (some n) = .ok (Hook.ofCall? src n) := by
  have bare : n.bare? = some n := by
    rw [Node.bare?]
    split <;> simp [h, Node.isAssertion]
  simp only [Hook.match?, bare]
  rfl

/-- What follows when a node that does not call a setter is not replaced. -/
structure Unreplaced (src : Source) (model : Model) (n : Node) : Prop where
  markup : n.isJsx = false
  hook : n.kind = "call_expression" → ∀ hook, Hook.ofCall? src n = some hook → hook.kind = .custom
  ref : n.kind = "member_expression" → currentRef? src model n = none
  name : isName n = true → referencedCell? model n.span = none

/-- A call that is no setter's is copied if it calls no hook of React. -/
theorem Unreplaced.of_call {n : Node} (hcall : n.kind = "call_expression")
    (hhook : ∀ hook, Hook.ofCall? src n = some hook → hook.kind = .custom) :
    Unreplaced src model n where
  markup := by simp [isJsx, jsxKinds, hcall]
  hook := fun _ => hhook
  ref := fun h => by simp [hcall] at h
  name := fun h => by simp [isName, hcall] at h

/-- A name that stays is no reference to a cell. -/
theorem replaceName_none (subs : Substitution) (n : Node) :
    Yields (fun r => r = none → referencedCell? model n.span = none)
      (replaceName src model subs n) := by
  unfold replaceName
  split
  case h_1 => exact .bind fun _ => .pure fun h => by cases h
  case h_2 hcell => exact .pure fun _ => hcell

/-- A node that does not call a setter is copied only if it is free of React, setters apart. -/
theorem replaceOther_none (subs : Substitution) (n : Node) :
    Yields (fun r => r = none → Unreplaced src model n) (replaceOther src model subs n) := by
  unfold replaceOther
  split
  case isTrue hcall =>
    -- Calls of hooks of React are refused. Any other call stays.
    have hcall : n.kind = "call_expression" := by simpa using hcall
    split
    case h_1 hook hhook =>
      split
      case isTrue hcustom =>
        refine .pure fun _ => .of_call hcall fun hook' hhook' => ?_
        rw [hhook] at hhook'
        cases hhook'
        simpa using hcustom
      case isFalse => exact .throw _
    case h_2 hnone => exact .pure fun _ => .of_call hcall fun hook hhook => by simp [hnone] at hhook
  case isFalse hcall =>
    have hcall : n.kind ≠ "call_expression" := by simpa using hcall
    split
    case isTrue hname =>
      -- A name stays unless it is that of a setter.
      intro s r t hrun hr
      have hcell := replaceName_none subs n hrun hr
      simp only [isName, Bool.or_eq_true, beq_iff_eq] at hname
      refine ⟨?_, fun h => absurd h hcall, fun h => ?_, fun _ => hcell⟩
      · rcases hname with hname | hname <;> simp [isJsx, jsxKinds, hname]
      · rcases hname with hname | hname <;> simp [hname] at h
    case isFalse hname =>
      split
      case isTrue hmember =>
        -- A member stays unless it reads a ref.
        have hmember : n.kind = "member_expression" := by simpa using hmember
        refine .pure fun href => ⟨?_, fun h => absurd h hcall, fun _ => href,
          fun h => absurd h hname⟩
        simp [isJsx, jsxKinds, hmember]
      case isFalse hmember =>
        split
        case isTrue => exact .throw _
        case isFalse hmarkup =>
          refine .pure fun _ => ⟨by simpa using hmarkup, fun h => absurd h hcall,
            fun h => ?_, fun h => absurd h hname⟩
          simp [h] at hmember

/-- Only a current value of a ref is read as one. -/
theorem currentRef_none {n object property : Node} (h : currentRef? src model n = none)
    (hobject : n.field? "object" = some object) (hproperty : n.field? "property" = some property)
    (hkind : object.kind = "identifier")
    (href : model.refs.contains (src.text object) = true) : src.text property ≠ "current" := by
  intro hcurrent
  simp [currentRef?, hobject, hproperty, hkind, href, hcurrent] at h

/-! ### Telling the uses of setters apart -/

/-- The node is the callee in a call of a setter. -/
def IsCallee (src : Source) (model : Model) (n : Node) : Prop :=
  ∃ call ∈ model.node.preorder, CallsSetter src model.state call n

instance (n : Node) : Decidable (IsCallee src model n) :=
  inferInstanceAs (Decidable (∃ call ∈ model.node.preorder, CallsSetter src model.state call n))

/-- A callee is an identifier. -/
theorem IsCallee.kind {n : Node} (h : IsCallee src model n) : n.kind = "identifier" := by
  obtain ⟨call, -, hcall⟩ := h
  simpa using (namedCallee_eq_some_iff.1 hcall.named).2.2

/-- The uses of setters in a component can be told apart by their spans, and no setter is given the
callee of another call of a setter as its argument. -/
structure Sites (src : Source) (model : Model) : Prop where
  names : DistinctSpans isName model.node
  calls : DistinctSpans (·.kind == "call_expression") model.node
  arguments : ∀ call ∈ model.node.preorder, ∀ callee, CallsSetter src model.state call callee →
    ∀ argument, (Hook.argumentsOf call).head? = some argument → ¬ IsCallee src model argument

instance : Decidable (Sites src model) :=
  decidable_of_iff
    (DistinctSpans isName model.node ∧ DistinctSpans (·.kind == "call_expression") model.node ∧
      ∀ call ∈ model.node.preorder, ∀ callee, namedCallee? call = some callee →
        IsSetter model.state (src.text callee) →
        ∀ argument, (Hook.argumentsOf call).head? = some argument → ¬ IsCallee src model argument)
    ⟨fun h => ⟨h.1, h.2.1, fun call hin callee hcall => h.2.2 call hin callee hcall.1 hcall.2⟩,
     fun h => ⟨h.names, h.calls, fun call hin callee hn hs => h.arguments call hin callee ⟨hn, hs⟩⟩⟩

/-- The model lists where its setters are used. -/
def Listed (src : Source) (model : Model) : Prop :=
  ∃ state, Unsited state ∧ model.state = setterSites src model.node state

/-- A call of a setter is recorded. -/
theorem setterCall_ne_none (hlisted : Listed src model) {call callee : Node}
    (hin : call ∈ model.node.preorder) (hcall : CallsSetter src model.state call callee) :
    setterCall? model call ≠ none := by
  obtain ⟨state, -, hstate⟩ := hlisted
  have kind := (namedCallee_eq_some_iff.1 hcall.named).1
  rw [hstate] at hcall
  obtain ⟨s, hs, hspan⟩ := hcall.sited hin
  rw [setterCall?, if_pos kind, calledCell?]
  intro hnone
  have := List.find?_eq_none.1 hnone s (by rw [hstate]; simpa using hs)
  simp [hspan] at this

/-- What is recorded is a call of a setter. -/
theorem callsSetter_of_setterCall (hlisted : Listed src model) (hsites : Sites src model)
    {call : Node} {cell : StateBinding} (hin : call ∈ model.node.preorder)
    (hcall : setterCall? model call = some cell) :
    ∃ callee, CallsSetter src model.state call callee := by
  obtain ⟨state, hunsited, hstate⟩ := hlisted
  unfold setterCall? at hcall
  split at hcall
  case isTrue kind =>
    have hmem := List.mem_of_find?_eq_some hcall
    have hspan := List.find?_some hcall
    rw [List.mem_reverse, hstate] at hmem
    obtain ⟨call', hin', callee, hcallee, hspan'⟩ :=
      callsSetter_of_sited hunsited hmem (by simpa using hspan)
    have kind' := (namedCallee_eq_some_iff.1 hcallee.named).1
    obtain rfl := hsites.calls.eq_of_span hin' hin kind' kind hspan'
    exact ⟨callee, by rwa [hstate]⟩
  case isFalse => cases hcall

/-! ### The nodes that a conversion visits -/

/-- A node of the component that a conversion may visit below `parent`: it starts at a node that is
no callee, and goes down from nodes that call no setter. -/
def Visited (src : Source) (model : Model) (parent : Option Node) (n : Node) : Prop :=
  n ∈ model.node.preorder ∧
    match parent with
    | none => ¬ IsCallee src model n
    | some p => p ∈ model.node.preorder ∧ n ∈ p.children ∧ setterCall? model p = none

/-- No callee of a setter is visited: its parent would be replaced. -/
theorem Visited.not_isCallee (hlisted : Listed src model) (hsites : Sites src model)
    {parent : Option Node} {n : Node} (h : Visited src model parent n) :
    ¬ IsCallee src model n := by
  cases parent with
  | none => exact h.2
  | some p =>
    intro hcallee
    have name : isName n = true := by simp [isName, hcallee.kind]
    obtain ⟨call, hin, hcall⟩ := hcallee
    have child := List.mem_of_find?_eq_some (namedCallee_eq_some_iff.1 hcall.named).2.1
    obtain rfl := hsites.names.parent_unique name h.2.1 hin h.2.2.1 child
    exact setterCall_ne_none hlisted hin hcall h.2.2.2

/-- **Step.** A node that is visited and not replaced is free of React. -/
theorem Visited.reactFree (hlisted : Listed src model) (hsites : Sites src model)
    {parent : Option Node} {n : Node} (h : Visited src model parent n)
    (hn : Unreplaced src model n) : ReactFree src model n where
  markup := hn.markup
  hook := by
    intro hcall hook hmatch
    rw [match_call hcall] at hmatch
    exact hn.hook hcall hook (Except.ok.inj hmatch)
  ref := fun hmember _ _ => currentRef_none (hn.ref hmember)
  setter := by
    intro name href hset
    have unlisted := hn.name name
    refine h.not_isCallee hlisted hsites ?_
    obtain ⟨state, -, hstate⟩ := hlisted
    rw [hstate] at hset
    -- It is used where no use is listed, so it has the span of a callee, and is that callee.
    obtain ⟨call, hin, callee, hcall, hspan⟩ := callee_of_unsited href hset fun s hs hspan => by
      have := List.find?_eq_none.1 unlisted s (by rw [hstate]; simpa using hs)
      simp [hspan] at this
    have named := namedCallee_eq_some_iff.1 hcall.named
    have name' : isName callee = true := by simp [isName, named.2.2]
    obtain rfl := hsites.names.eq_of_span (field_mem_preorder named.2.1 hin) h.1 name' name hspan
    rw [← hstate] at hcall
    exact ⟨call, hin, hcall⟩

/-! ### Whole conversions -/

/-- All that is noted between two states has a property. -/
def NotesOnly (Q : Node → Prop) (s t : Memory × List Node) : Prop :=
  ∀ n ∈ t.2, n ∈ s.2 ∨ Q n

instance (Q : Node → Prop) : Std.Refl (NotesOnly Q) := ⟨fun _ _ h => .inl h⟩

instance (Q : Node → Prop) : IsTrans _ (NotesOnly Q) where
  trans s t u hst htu n hn := by
    rcases htu n hn with h | h
    · exact hst n h
    · exact .inr h

theorem leads_of {Q : Node → Prop} {α : Type} (x : Conversion α) :
    Leads (NotesOnly Q) (Noting.of x) := by
  intro s a t h
  unfold Noting.of at h
  split at h <;> cases h
  exact fun n hn => .inl hn

theorem leads_note {Q : Node → Prop} {n : Node} (hn : Q n) : Leads (NotesOnly Q) (note n) :=
  .modify fun s m hm => by
    rcases List.mem_append.1 hm with hm | hm
    · exact .inl hm
    · rw [List.mem_singleton] at hm
      exact .inr (hm ▸ hn)

/-- Only nodes free of React are copied. -/
theorem leads_replaceNoting (hlisted : Listed src model) (hsites : Sites src model)
    {parent : Option Node} {n : Node} (h : Visited src model parent n) (subs : Substitution) :
    Leads (NotesOnly (ReactFree src model)) (replaceNoting src model subs n) := by
  intro s r t hrun
  obtain ⟨replacement, s₁, h₁, h₂⟩ := bind_ok_iff.1 hrun
  refine IsTrans.trans _ _ _ (leads_of _ h₁) ?_
  cases replacement with
  | some text =>
    cases h₂
    exact refl _
  | none =>
    unfold Noting.of at h₁
    split at h₁ <;> cases h₁
    case h_1 uses hother =>
      have free := h.reactFree hlisted hsites (replaceOther_none subs n hother rfl)
      exact Leads.bind (leads_note free) (fun _ => .pure _) h₂

/-- The new value of a cell comes from an updater function itself, or from its body. -/
theorem updatedValue_node (cell : String) (subs : Substitution) (f : Node) :
    (updatedValue src cell subs f).node = f ∨
      f.field? "body" = some (updatedValue src cell subs f).node := by
  unfold updatedValue
  split
  · exact .inl rfl
  case h_2 body hbody =>
    split
    · exact .inl rfl
    · split
      · exact .inr hbody
      · dsimp only
        split
        · exact .inr hbody
        · exact .inl rfl
      · exact .inl rfl

/-- The new value of a cell is converted from a node of the component that is no callee. -/
theorem visited_newValue (hsites : Sites src model) {cell : String} {subs : Substitution}
    {argument : Node} {v : NewValue} (h : Visited src model none argument)
    (hv : newValue? src cell subs argument = some v) : Visited src model none v.node := by
  obtain ⟨inner, hinner, rfl⟩ := Option.map_eq_some_iff.1 hv
  have inside := preorder_trans (bare_mem_preorder hinner) h.1
  split
  case isTrue hfunction =>
    have not_call : inner.kind ≠ "call_expression" := by
      intro h
      simp [isFunction, functionKinds, h] at hfunction
    rcases @updatedValue_node src cell subs inner with heq | hbody
    · rw [heq]
      refine ⟨inside, fun hcallee => ?_⟩
      simp [isFunction, functionKinds, hcallee.kind] at hfunction
    · -- The parent of the body is the function, and not a call.
      refine ⟨field_mem_preorder hbody inside, fun hcallee => ?_⟩
      have name : isName (updatedValue src cell subs inner).node = true := by
        simp [isName, hcallee.kind]
      obtain ⟨call, hin, hcall⟩ := hcallee
      have named := namedCallee_eq_some_iff.1 hcall.named
      obtain rfl := hsites.names.parent_unique name hin inside
        (List.mem_of_find?_eq_some named.2.1) (List.mem_of_find?_eq_some hbody)
      exact not_call (by simpa using named.1)
  case isFalse => exact h

/-- The first argument of a call of a setter is a node of the component that is no callee. -/
theorem visited_argument (hlisted : Listed src model) (hsites : Sites src model)
    {call argument : Node} {cell : StateBinding} (hin : call ∈ model.node.preorder)
    (hcall : setterCall? model call = some cell)
    (hargument : (Hook.argumentsOf call).head? = some argument) :
    Visited src model none argument := by
  obtain ⟨callee, hcallee⟩ := callsSetter_of_setterCall hlisted hsites hin hcall
  refine ⟨?_, hsites.arguments call hin callee hcallee argument hargument⟩
  have hmem := List.mem_of_head? hargument
  unfold Hook.argumentsOf at hmem
  cases harguments : call.field? "arguments" with
  | none => simp [harguments] at hmem
  | some arguments =>
    rw [harguments] at hmem
    exact child_mem_preorder (namedChildren_subset hmem) (field_mem_preorder harguments hin)

/-- **Run.** Whatever a conversion notes is free of React. -/
theorem leads_convertNoting (hlisted : Listed src model) (hsites : Sites src model)
    (subs : Substitution) (isStatement : Bool) {n : Node} (hn : Visited src model none n) :
    Leads (NotesOnly (ReactFree src model)) (convertNoting src model subs isStatement n) := by
  rw [convertNoting]
  refine spliceNode_of (V := Visited src model) Leads.closed ?_ ?_ _ hn
  · intro parent c hc hvisited
    cases hcall : setterCall? model c with
    | none => exact leads_replaceNoting hlisted hsites hvisited subs
    | some cell =>
      dsimp only
      generalize harg : (Hook.argumentsOf c).head? = first
      cases first with
      | none => exact .pure _
      | some argument =>
        dsimp only
        generalize hv : newValue? src cell.name subs argument = value
        cases value with
        | none => exact .throw _
        | some v =>
          have hargument := visited_argument hlisted hsites hvisited.1 hcall harg
          have hvalue := visited_newValue hsites hargument hv
          exact .bind (leads_convertNoting hlisted hsites _ _ hvalue) fun text => .pure _
  · intro parent c hc s t hvisited hrun d hd
    refine ⟨child_mem_preorder hd hvisited.1, hvisited.1, hd, ?_⟩
    -- A call of a setter is always replaced.
    cases hcall : setterCall? model c with
    | none => rfl
    | some cell =>
      rw [hcall] at hrun
      refine absurd rfl ((show Yields (fun r => r ≠ none) _ from ?_) hrun)
      dsimp only
      generalize (Hook.argumentsOf c).head? = first
      cases first with
      | none => exact .pure (by simp)
      | some argument =>
        dsimp only
        generalize newValue? src cell.name subs argument = value
        cases value with
        | none => exact .throw _
        | some v => exact .bind fun text => .pure (by simp)
termination_by n.size
decreasing_by
  have := size_newValue src hv
  have := size_argumentsOf harg
  omega

/-- **Free of React.** Take the model of a component whose uses of setters can be told apart, and a
node of the component that is not the callee of a setter. If its conversion yields a text, then
every node that was copied, also in the conversion of an argument or of the body of an updater, is
free of React. -/
theorem convert_reactFree {m : Module} {o : Options} {reports reports' : List Report}
    (hmodel : analyze m o reports = .ok model reports') (hsites : Sites m.source model)
    {n : Node} (hn : n ∈ model.node.preorder) (hcallee : ¬ IsCallee m.source model n)
    {subs : Substitution} {isStatement : Bool} {memory memory' : Memory} {text : String}
    (hrun : convert m.source model subs isStatement n memory = .ok text memory') :
    ∃ copied,
      convertNoting m.source model subs isStatement n (memory, []) = .ok text (memory', copied) ∧
      ∀ c ∈ copied, ReactFree m.source model c := by
  obtain ⟨copied, hcopied⟩ := convertNoting_ok m.source hrun
  have notes := leads_convertNoting (analyze_state hmodel) hsites subs isStatement ⟨hn, hcallee⟩
    hcopied
  refine ⟨copied, hcopied, fun c hc => ?_⟩
  rcases notes c hc with h | h
  · cases h
  · exact h

/-! ### Components with two cells of state -/

section Sample

/-- The declaration of a cell `[c, setC] = useState()` whose pattern starts at an offset. -/
def sampleCell (start : Nat) : Node :=
  plain "lexical_declaration" (start - 6) (start + 23)
    [plain "variable_declarator" start (start + 22)
    [plain "array_pattern" start (start + 9)
      [plain "identifier" (start + 1) (start + 2) [], plain "identifier" (start + 4) (start + 8) []]
      (some "name"),
     plain "call_expression" (start + 12) (start + 22)
      [plain "identifier" (start + 12) (start + 20) [] (some "function")] (some "value")]]

/-- A component with cells `x` and `y`, and a statement of which the text starts at offset 90. -/
def sampleModule (statement : String) (tree : Node) : Module where
  source := .ofText "App.jsx" ("function App() \x7b const [x, setX] = useState(); " ++
    "const [y, setY] = useState(); return <p/>; " ++ statement ++ " \x7d")
  root :=
    let stop := tree.stop + 2
    let returned := plain "return_statement" 77 89 [plain "jsx_self_closing_element" 84 88 []]
    .numbered <| plain "program" 0 stop [plain "function_declaration" 0 stop
      [plain "identifier" 9 12 [] (some "name"),
       plain "statement_block" 15 stop [sampleCell 23, sampleCell 53, returned, tree]
        (some "body")]]
  dialect := .javascript

/-- A setter that is passed on, and an updater. -/
def updaterModule : Module :=
  sampleModule "run(setX, setY(n => n + x));" <|
    plain "expression_statement" 90 118 [plain "call_expression" 90 117
      [plain "identifier" 90 93 [] (some "function"),
       plain "arguments" 93 117
        [plain "identifier" 94 98 [],
         plain "call_expression" 100 116
          [plain "identifier" 100 104 [] (some "function"),
           plain "arguments" 104 116 [plain "arrow_function" 105 115
            [plain "identifier" 105 106 [] (some "parameter"),
             plain "binary_expression" 110 115
              [plain "identifier" 110 111 [] (some "left"),
               plain "identifier" 114 115 [] (some "right")] (some "body")]]
            (some "arguments")]] (some "arguments")]]

/-- A setter that is called with a function. -/
theorem convert_reactFree_of_updater : ∃ model reports n memory copied,
    analyze updaterModule {} [] = .ok model reports ∧ Sites updaterModule.source model ∧
    n ∈ model.node.preorder ∧ ¬ IsCallee updaterModule.source model n ∧
    convertNoting updaterModule.source model [] false n ({}, [])
      = .ok "run((value) => (x = value), (y = y + x));" (memory, copied) ∧
    ∀ c ∈ copied, ReactFree updaterModule.source model c := by
  have test : endsIn (analyze updaterModule {}) [] (fun model _ => decide
      (Sites updaterModule.source model ∧
        ∃ n ∈ model.node.preorder, ¬ IsCallee updaterModule.source model n ∧
          endsIn (convert updaterModule.source model [] false n) {}
            (fun text _ => text == "run((value) => (x = value), (y = y + x));") = true))
      = true := by
    decide +kernel
  obtain ⟨model, reports, hmodel, hchecked⟩ := exists_ok_of_endsIn test
  obtain ⟨hsites, n, hn, hcallee, hconverted⟩ := of_decide_eq_true hchecked
  obtain ⟨text, memory, hrun, htext⟩ := exists_ok_of_endsIn hconverted
  obtain rfl := eq_of_beq htext
  obtain ⟨copied, hcopied, hfree⟩ := convert_reactFree hmodel hsites hn hcallee hrun
  exact ⟨model, reports, n, memory, copied, hmodel, hsites, hn, hcallee, hcopied, hfree⟩

/-- A call of a setter that stands where the arguments of another should. -/
def nestedCallModule : Module :=
  sampleModule "setY(setX(1));" <|
    plain "expression_statement" 90 104 [plain "call_expression" 90 103
      [plain "identifier" 90 94 [] (some "function"),
       plain "call_expression" 95 102
        [plain "identifier" 95 99 [] (some "function"),
         plain "arguments" 99 102 [plain "number" 100 101 []] (some "arguments")]
        (some "arguments")]]

/-- A call of a setter inside a shorthand property with the same span. -/
def shorthandModule : Module :=
  sampleModule "(\x7b setX \x7d);" <|
    plain "expression_statement" 90 101 [plain "parenthesized_expression" 90 100
      [plain "object" 91 99
      [plain "shorthand_property_identifier" 93 97 [plain "call_expression" 93 97
        [plain "identifier" 93 97 [] (some "function")]]]]]

/-- A tree is well nested, calls and the names of some sort have distinct spans, and yet the
conversion of a node that is no callee copies a setter. -/
def CopiesSetter (m : Module) (names : Node → Bool) : Prop :=
  m.root.isNested = true ∧ ∃ model reports, analyze m {} [] = .ok model reports ∧
    DistinctSpans names model.node ∧ DistinctSpans (·.kind == "call_expression") model.node ∧
    ∃ n ∈ model.node.preorder, ¬ IsCallee m.source model n ∧
      ∃ text after, convertNoting m.source model [] false n ({}, []) = .ok text after ∧
        ∃ c ∈ after.2, isName c = true ∧ c ∈ references m.source model.node ∧
          IsSetter model.state (m.source.text c)

/-- The test that a setter is copied can be run. -/
theorem copiesSetter_of_endsIn {m : Module} {names : Node → Bool}
    (hnested : m.root.isNested = true)
    (h : endsIn (analyze m {}) [] (fun model _ => decide
      (DistinctSpans names model.node ∧ DistinctSpans (·.kind == "call_expression") model.node ∧
        ∃ n ∈ model.node.preorder, ¬ IsCallee m.source model n ∧
          endsIn (convertNoting m.source model [] false n) ({}, []) (fun _ after => decide
            (∃ c ∈ after.2, isName c = true ∧ c ∈ references m.source model.node ∧
              IsSetter model.state (m.source.text c))) = true)) = true) :
    CopiesSetter m names := by
  obtain ⟨model, reports, hmodel, hchecked⟩ := exists_ok_of_endsIn h
  obtain ⟨hnames, hcalls, n, hn, hcallee, hcopies⟩ := of_decide_eq_true hchecked
  obtain ⟨text, after, hrun, hcopied⟩ := exists_ok_of_endsIn hcopies
  exact ⟨hnested, model, reports, hmodel, hnames, hcalls, n, hn, hcallee, text, after, hrun,
    of_decide_eq_true hcopied⟩

/-- A setter is copied if it stands first where the arguments of another should, and if a shorthand
property has the span of the callee of a setter. -/
theorem convert_copies_setter :
    CopiesSetter nestedCallModule isName ∧
      CopiesSetter shorthandModule (·.kind == "identifier") :=
  ⟨copiesSetter_of_endsIn (by decide +kernel) (by decide +kernel),
    copiesSetter_of_endsIn (by decide +kernel) (by decide +kernel)⟩

end Sample

end Sveltify.Expression
