import Sveltify.Proofs.Expression.Copy
import Sveltify.Proofs.Scope.Binders

namespace Sveltify.Expression

open Analysis Component Node Scope

/-!
# Updater functions

A call of a setter with a function `p => body` becomes the assignment of `body` to the cell, with
the name of the cell in place of `p`. That name is put in wherever `p` stands, whatever the
functions in the body declare: what a name in the body refers to may change.

* `Update`: a call of a setter whose parameter is replaced;
* `CaptureFree`: the functions in the body keep the parameter and the cell apart;
* `keepsReferents_iff`: just then the names in the body refer to what they did before;
* `captureFree_of_unbound`: it is so if the functions in the body have other parameters;
* `update_substitutes`: what such a call becomes, and when it means the same;
* `cell_captured`: a call that means something else afterwards.
-/

variable {src : Source} {model : Model}

/-! ### Calls whose parameter is replaced -/

/-- A call of a setter with a function of one parameter that is a name. The body of the function is
an expression, and the function is not asynchronous. -/
structure Update (model : Model) (call : Node) where
  cell : StateBinding
  argument : Node
  function : Node
  parameter : Node
  body : Node
  isCall : setterCall? model call = some cell
  isArgument : (Hook.argumentsOf call).head? = some argument
  isBare : argument.bare? = some function
  isFunction : function.isFunction = true
  isBody : function.field? "body" = some body
  isExpression : body.kind ≠ "statement_block"
  isSynchronous : function.hasToken "async" = false
  isParameter : parametersOf function = [parameter]
  isIdentifier : (patternOf parameter).kind = "identifier"

namespace Update

variable {call : Node} (u : Update model call)

/-- The name of the parameter. -/
def name (src : Source) : String := src.text (patternOf u.parameter)

/-- The new value is the body of the function, with the cell in place of the parameter. -/
theorem newValue (subs : Substitution) :
    newValue? src u.cell.name subs u.argument =
      some ⟨u.body, (u.name src, u.cell.name) :: subs, false⟩ := by
  have isLeft : (u.body.kind == "statement_block" || u.function.hasToken "async") = false := by
    simp [u.isExpression, u.isSynchronous]
  have updated : updatedValue src u.cell.name subs u.function =
      ⟨u.body, (u.name src, u.cell.name) :: subs, false⟩ := by
    unfold updatedValue
    rw [u.isBody]
    dsimp only
    rw [isLeft, u.isParameter]
    dsimp only
    rw [if_neg Bool.false_ne_true, if_pos (by rw [u.isIdentifier]; rfl)]
    rfl
  rw [newValue?, u.isBare, Option.map_some, if_pos u.isFunction, updated]

end Update

/-- A call of a setter becomes the assignment of the new value. -/
theorem convert_setterCall {call argument : Node} {cell : StateBinding} {subs : Substitution}
    {v : NewValue} (hcell : setterCall? model call = some cell)
    (hargument : (Hook.argumentsOf call).head? = some argument)
    (hv : newValue? src cell.name subs argument = some v) (isStatement : Bool) :
    convert src model subs isStatement call = (do
      let text ← convert src model v.substitution false v.node
      let value := if v.isApplied then s!"({text})({cell.name})" else text
      return assignment cell.name value isStatement) := by
  rw [convert, spliceNode, hcell]
  dsimp only
  -- The call is replaced as a whole, so what follows on a node that is kept does not matter.
  split
  case h_1 hnone => rw [hargument] at hnone; cases hnone
  case h_2 argument' hsome =>
    obtain rfl : argument = argument' := Option.some.inj (hargument.symm.trans hsome)
    split
    case h_1 hnone => rw [hv] at hnone; cases hnone
    case h_2 v' hsome' =>
      obtain rfl : v = v' := Option.some.inj (hv.symm.trans hsome')
      simp only [bind_assoc, pure_bind]

/-! ### What the names of a body refer to -/

/-- A name after a substitution. -/
def rename (subs : Substitution) (name : String) : String := (subs.lookup name).getD name

/-- The name that a node stands for after a substitution. A name that a pattern takes out of an
object under the same key has no substitute. -/
def renamed (src : Source) (subs : Substitution) (n : Node) : String :=
  if isName n then rename subs (src.text n) else src.text n

/-- The places where a name stands in a tree, each with the nodes around it. -/
def uses (src : Source) (body : Node) (name : String) : List (List Node) :=
  (body.lineages []).filter fun l => l.head?.any fun n => isName n && src.text n == name

/-- After a substitution each name of a body refers to the same declarations as before, or to none
of the body if it did so before. -/
def KeepsReferents (src : Source) (scope : Node → List Node) (subs : Substitution) (body : Node) :
    Prop :=
  ∀ name, ∀ l ∈ uses src body name,
    referents (renamed src subs) scope (rename subs name) l = referents src.text scope name l

/-- A parameter and a cell are kept apart in a body. -/
structure CaptureFree (src : Source) (scope : Node → List Node) (parameter cell : String)
    (body : Node) : Prop where
  /-- Where the parameter stands, the cell is not declared anew. -/
  unshadowed : ∀ l ∈ uses src body parameter, ∀ n ∈ reach src.text scope parameter l,
    ∀ d ∈ scope n, src.text d ≠ cell
  /-- Where the parameter stands, it is not declared anew by a pattern that keeps the name. -/
  replaced : ∀ l ∈ uses src body parameter, ∀ n ∈ reach src.text scope parameter l,
    ∀ d ∈ scope n, src.text d = parameter → isName d = true
  /-- Where the cell stands, the parameter is not declared anew by a name that is replaced. -/
  undisturbed : ∀ l ∈ uses src body cell, ∀ n ∈ reach src.text scope cell l,
    ∀ d ∈ scope n, src.text d = parameter → isName d = false

instance (src : Source) (scope : Node → List Node) (parameter cell : String) (body : Node) :
    Decidable (CaptureFree src scope parameter cell body) :=
  decidable_of_iff
    ((∀ l ∈ uses src body parameter, ∀ n ∈ reach src.text scope parameter l,
        ∀ d ∈ scope n, src.text d ≠ cell) ∧
      (∀ l ∈ uses src body parameter, ∀ n ∈ reach src.text scope parameter l,
        ∀ d ∈ scope n, src.text d = parameter → isName d = true) ∧
      ∀ l ∈ uses src body cell, ∀ n ∈ reach src.text scope cell l,
        ∀ d ∈ scope n, src.text d = parameter → isName d = false)
    ⟨fun h => ⟨h.1, h.2.1, h.2.2⟩, fun h => ⟨h.unshadowed, h.replaced, h.undisturbed⟩⟩

section Renaming

variable {scope : Node → List Node} {parameter cell name : String} {body d : Node}

theorem rename_parameter : rename [(parameter, cell)] parameter = cell := by
  simp [rename]

theorem rename_of_ne (h : name ≠ parameter) : rename [(parameter, cell)] name = name := by
  simp [rename, List.lookup_cons, beq_false_of_ne h]

theorem renamed_of_ne (h : src.text d ≠ parameter) :
    renamed src [(parameter, cell)] d = src.text d := by
  rw [renamed, rename_of_ne h, ite_self]

theorem renamed_of_eq (h : src.text d = parameter) :
    renamed src [(parameter, cell)] d = if isName d then cell else parameter := by
  rw [renamed, h, rename_parameter]

/-- What the parameter refers to is found by the name of the cell. -/
theorem renamed_eq_parameter (hne : parameter ≠ cell) :
    (renamed src [(parameter, cell)] d = cell ↔ src.text d = parameter) ↔
      src.text d ≠ cell ∧ (src.text d = parameter → isName d = true) := by
  by_cases h : src.text d = parameter
  · rw [renamed_of_eq h, h]
    cases isName d <;> simp [hne]
  · rw [renamed_of_ne h]
    simp [h]

/-- What the cell refers to is still found by its name. -/
theorem renamed_eq_cell (hne : parameter ≠ cell) :
    (renamed src [(parameter, cell)] d = cell ↔ src.text d = cell) ↔
      (src.text d = parameter → isName d = false) := by
  by_cases h : src.text d = parameter
  · rw [renamed_of_eq h, h]
    cases isName d <;> simp [hne]
  · rw [renamed_of_ne h]
    simp [h]

/-- What another name refers to is still found by it. -/
theorem renamed_eq_other (hparameter : name ≠ parameter) (hcell : name ≠ cell) :
    renamed src [(parameter, cell)] d = name ↔ src.text d = name := by
  by_cases h : src.text d = parameter
  · rw [renamed_of_eq h, h]
    cases isName d <;> simp [hparameter.symm, hcell.symm]
  · rw [renamed_of_ne h]

/-- A substitution by the same name changes nothing. -/
theorem keepsReferents_self : KeepsReferents src scope [(cell, cell)] body := by
  have same (name : String) : rename [(cell, cell)] name = name := by
    by_cases h : name = cell
    · rw [h, rename_parameter]
    · exact rename_of_ne h
  have sameText : renamed src [(cell, cell)] = src.text := by
    funext n
    rw [renamed, same, ite_self]
  intro name l _
  rw [same, sameText]

/-- **Capture.** The names of a body refer to the same declarations as before just if parameter and
cell are kept apart. -/
theorem keepsReferents_iff (hne : parameter ≠ cell) :
    KeepsReferents src scope [(parameter, cell)] body ↔
      CaptureFree src scope parameter cell body := by
  simp only [KeepsReferents, referents_eq_iff]
  constructor
  · intro h
    have hparameter := h parameter
    have hcell := h cell
    simp only [rename_parameter, renamed_eq_parameter hne] at hparameter
    simp only [rename_of_ne hne.symm, renamed_eq_cell hne] at hcell
    exact ⟨fun l hl n hn d hd => (hparameter l hl n hn d hd).1,
      fun l hl n hn d hd => (hparameter l hl n hn d hd).2, hcell⟩
  · intro h name l hl n hn d hd
    by_cases hp : name = parameter
    · subst hp
      rw [rename_parameter, renamed_eq_parameter hne]
      exact ⟨h.unshadowed l hl n hn d hd, h.replaced l hl n hn d hd⟩
    · rw [rename_of_ne hp]
      by_cases hc : name = cell
      · subst hc
        rw [renamed_eq_cell hne]
        exact h.undisturbed l hl n hn d hd
      · -- A third name is neither put in nor taken out anywhere.
        exact renamed_eq_other hp hc

/-- No function in a body has a parameter of one of the names. -/
def Unbound (src : Source) (names : List String) (body : Node) : Prop :=
  ∀ f ∈ body.preorder, f.isFunction = true →
    ∀ bound ∈ (parametersOf f).flatMap (boundNames src), bound ∉ names

instance (src : Source) (names : List String) (body : Node) : Decidable (Unbound src names body) :=
  inferInstanceAs (Decidable (∀ f ∈ body.preorder, f.isFunction = true →
    ∀ bound ∈ (parametersOf f).flatMap (boundNames src), bound ∉ names))

/-- Parameter and cell are kept apart if no function in the body has a parameter of either name. -/
theorem captureFree_of_unbound (h : Unbound src [parameter, cell] body) :
    CaptureFree src parameterScope parameter cell body := by
  have apart {name : String} {l : List Node} (hl : l ∈ uses src body name) {n : Node}
      (hn : n ∈ reach src.text parameterScope name l) {d : Node} (hd : d ∈ parameterScope n) :
      src.text d ≠ parameter ∧ src.text d ≠ cell := by
    -- What is in reach is around the name and in the body, and there only functions declare.
    have hlineage := (List.mem_filter.1 hl).1
    have hmem : n ∈ body.preorder :=
      (mem_preorder_of_mem_lineages hlineage (mem_of_mem_reach hn)).resolve_right List.not_mem_nil
    by_cases hf : n.isFunction = true
    · have hbound : src.text d ∈ (parametersOf n).flatMap (boundNames src) := by
        rw [← map_text_parameterScope src hf]
        exact List.mem_map_of_mem hd
      simpa using h n hmem hf _ hbound
    · rw [parameterScope, if_neg hf] at hd
      cases hd
  exact ⟨fun l hl n hn d hd => (apart hl hn hd).2,
    fun l hl n hn d hd htext => absurd htext (apart hl hn hd).1,
    fun l hl n hn d hd htext => absurd htext (apart hl hn hd).1⟩

end Renaming

/-! ### Updates -/

/-- **Updates substitute.** A call of a setter with a function of one name assigns the body of the
function with the cell in place of the name. If nothing else in the body is converted, this is its
text with the substitutes woven into it. Whatever the nodes of the body declare, its names refer to
the same declarations as before just if the name is that of the cell, or the two are kept apart; for
the parameters of functions, it is enough that none of them has either name. -/
theorem update_substitutes {call : Node} (u : Update model call) (subs : Substitution) :
    newValue? src u.cell.name subs u.argument =
        some ⟨u.body, (u.name src, u.cell.name) :: subs, false⟩ ∧
      (WellPlaced src u.body → Untouched src model u.body → ∀ isStatement,
        convert src model subs isStatement call =
          pure (assignment u.cell.name (weave src u.body.start u.body.stop
            (topmost (fun _ => substitute? src ((u.name src, u.cell.name) :: subs)) u.body))
            isStatement)) ∧
      (∀ scope, KeepsReferents src scope [(u.name src, u.cell.name)] u.body ↔
        u.name src = u.cell.name ∨ CaptureFree src scope (u.name src) u.cell.name u.body) ∧
      (Unbound src [u.name src, u.cell.name] u.body →
        KeepsReferents src parameterScope [(u.name src, u.cell.name)] u.body) := by
  have meaning (scope : Node → List Node) :
      KeepsReferents src scope [(u.name src, u.cell.name)] u.body ↔
        u.name src = u.cell.name ∨ CaptureFree src scope (u.name src) u.cell.name u.body := by
    by_cases hname : u.name src = u.cell.name
    · rw [hname]
      exact ⟨fun _ => .inl rfl, fun _ => keepsReferents_self⟩
    · rw [keepsReferents_iff hname]
      exact ⟨.inr, fun h => h.resolve_left hname⟩
  refine ⟨u.newValue subs, fun hplaced huntouched isStatement => ?_, meaning, fun hunbound =>
    (meaning parameterScope).2 (.inr (captureFree_of_unbound hunbound))⟩
  rw [convert_setterCall u.isCall u.isArgument (u.newValue subs) isStatement,
    convert_substituted hplaced huntouched, pure_bind]
  rfl

section Sample

/-- The update that a call of a setter is, if it is one. -/
def update? (model : Model) (call : Node) : Option (Update model call) :=
  match hcell : setterCall? model call, hargument : (Hook.argumentsOf call).head? with
  | some cell, some argument =>
    match hbare : argument.bare? with
    | none => none
    | some function =>
      match hbody : function.field? "body", hparameter : parametersOf function with
      | some body, [parameter] =>
        if h : function.isFunction = true ∧ body.kind ≠ "statement_block" ∧
            function.hasToken "async" = false ∧ (patternOf parameter).kind = "identifier" then
          some ⟨cell, argument, function, parameter, body, hcell, hargument, hbare, h.1, hbody,
            h.2.1, h.2.2.1, hparameter, h.2.2.2⟩
        else none
      | _, _ => none
  | _, _ => none

/-- A component that looks for an item that is larger than the cell `x`. The item has the given name
of one letter. -/
def searchModule (item : String) : Module :=
  sampleModule ("setX(n => xs.find(" ++ item ++ " => " ++ item ++ " > n));") <|
    plain "expression_statement" 90 121 [plain "call_expression" 90 120
      [plain "identifier" 90 94 [] (some "function"),
       plain "arguments" 94 120 [plain "arrow_function" 95 119
        [plain "identifier" 95 96 [] (some "parameter"),
         plain "call_expression" 100 119
          [plain "member_expression" 100 107
            [plain "identifier" 100 102 [] (some "object"),
             plain "property_identifier" 103 107 [] (some "property")] (some "function"),
           plain "arguments" 107 119 [plain "arrow_function" 108 118
            [plain "identifier" 108 109 [] (some "parameter"),
             plain "binary_expression" 113 118
              [plain "identifier" 113 114 [] (some "left"),
               plain "identifier" 117 118 [] (some "right")] (some "body")]]
            (some "arguments")] (some "body")]] (some "arguments")]]

/-- With items of another name than the cell, the names of the body go on to mean the same. -/
theorem update_substitutes_of_search : ∃ model reports call, ∃ u : Update model call,
    analyze (searchModule "z") {} [] = .ok model reports ∧ call ∈ model.node.preorder ∧
    convert (searchModule "z").source model [] false call = pure "(x = xs.find(z => z > x))" ∧
    KeepsReferents (searchModule "z").source parameterScope
      [(u.name (searchModule "z").source, u.cell.name)] u.body := by
  let src := (searchModule "z").source
  have test : endsIn (analyze (searchModule "z") {}) [] (fun model _ =>
      model.node.preorder.any fun call => (update? model call).any fun (u : Update model call) =>
        decide (WellPlaced src u.body ∧ Untouched src model u.body ∧
          assignment u.cell.name (weave src u.body.start u.body.stop
            (topmost (fun _ => substitute? src [(u.name src, u.cell.name)]) u.body)) false =
              "(x = xs.find(z => z > x))" ∧
          Unbound src [u.name src, u.cell.name] u.body)) = true := by
    decide +kernel
  obtain ⟨model, reports, hmodel, hany⟩ := exists_ok_of_endsIn test
  obtain ⟨call, hcall, hupdate⟩ := List.any_eq_true.1 hany
  obtain ⟨hsome, hchecked⟩ := (Option.any_eq_true_iff_get _ _).1 hupdate
  generalize (update? model call).get hsome = u at hchecked
  obtain ⟨hplaced, huntouched, htext, hunbound⟩ := of_decide_eq_true hchecked
  obtain ⟨-, htexts, -, hmeaning⟩ := @update_substitutes src model call u []
  refine ⟨model, reports, call, u, hmodel, hcall, ?_, hmeaning hunbound⟩
  rw [htexts hplaced huntouched false, htext]

/-- With items named like the cell, the parameter becomes the item: it referred to nothing in the
body before. -/
theorem cell_captured : ∃ model reports call, ∃ u : Update model call,
    analyze (searchModule "x") {} [] = .ok model reports ∧ call ∈ model.node.preorder ∧
    endsIn (convert (searchModule "x").source model [] false call) {}
      (fun text _ => text == "(x = xs.find(x => x > x))") = true ∧
    ∃ l ∈ uses (searchModule "x").source u.body "n",
      referents (searchModule "x").source.text parameterScope "n" l = [] ∧
      (referents (renamed (searchModule "x").source [("n", "x")]) parameterScope "x" l).map
        Node.span = [(108, 109)] := by
  let src := (searchModule "x").source
  have test : endsIn (analyze (searchModule "x") {}) [] (fun model _ =>
      model.node.preorder.any fun call => (update? model call).any fun (u : Update model call) =>
        decide (endsIn (convert src model [] false call) {}
            (fun text _ => text == "(x = xs.find(x => x > x))") = true ∧
          ∃ l ∈ uses src u.body "n", referents src.text parameterScope "n" l = [] ∧
            (referents (renamed src [("n", "x")]) parameterScope "x" l).map Node.span =
              [(108, 109)])) = true := by
    decide +kernel
  obtain ⟨model, reports, hmodel, hany⟩ := exists_ok_of_endsIn test
  obtain ⟨call, hcall, hupdate⟩ := List.any_eq_true.1 hany
  obtain ⟨hsome, hchecked⟩ := (Option.any_eq_true_iff_get _ _).1 hupdate
  generalize (update? model call).get hsome = u at hchecked
  obtain ⟨htext, l, hl, hfree, hcaptured⟩ := of_decide_eq_true hchecked
  exact ⟨model, reports, call, u, hmodel, hcall, htext, l, hl, hfree, hcaptured⟩

end Sample

end Sveltify.Expression
