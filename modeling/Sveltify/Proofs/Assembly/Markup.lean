import Sveltify.Assembly.Markup
import Sveltify.Proofs.Assembly.Plain

namespace Sveltify.Assembly

open Component Expression Svelte Text
open Render (ElementHead EventBinding InstanceHead ListHead RenderNode SlotContent innerExpression?)

/-!
# What is left in markup

Every piece of a render tree becomes markup. A piece that is refused is left as a placeholder, and
an attribute that is refused is left before its element.

* `markupLeftovers`: what the placeholders in markup keep;
* `nodeLeftovers`: what is kept of a piece of a render tree;
* `ends_nodeMarkup`: markup is never refused, and its placeholders keep what the pieces leave.
-/

variable {src : Source} {model : Model}

/-! ### Steps for attributes -/

/-- An event is converted by plain steps. -/
theorem plain_eventFor (tag : String) (inputType : Option String) (e : EventBinding) :
    Plain src (eventFor src model tag inputType e) :=
  .bind (plain_expressionText e.handler) fun _ _ => .pure _ _

/-- So is an attribute. -/
theorem plain_attributeFor (name : String) (a : Render.Attribute) :
    Plain src (attributeFor src model name a) := by
  unfold attributeFor
  cases a.isSpread with
  | true => exact .bind (plain_expressionText? a.value) fun _ _ => .pure _ _
  | false =>
    cases a.value with
    | none => exact .pure _ _
    | some value =>
      dsimp only
      cases value.kind == "string" with
      | true => exact .pure _ _
      | false =>
        cases innerExpression? value with
        | none => exact .pure _ _
        | some e => exact .bind (plain_expressionText e) fun _ _ => .pure _ _

theorem plain_styleDirective (pair : Node) : Plain src (styleDirective src model pair) := by
  unfold styleDirective
  cases (pair.field? "key").filter (·.kind != "computed_property_name") with
  | none => exact .throw rfl
  | some key =>
    cases pair.field? "value" with
    | none => exact .throw rfl
    | some value =>
      dsimp only
      cases stringLiteral? src value with
      | some literal => exact .pure _ _
      | none =>
        cases isStyleNumber src value with
        | true => exact .pure _ _
        | false => exact .bind (plain_expressionText value) fun _ _ => .pure _ _

/-- So are styles. -/
theorem plain_styleDirectives (a : Render.Attribute) : Plain src (styleDirectives src model a) := by
  have whole : Plain src (do return [← domAttribute src model a]) :=
    .bind (plain_attributeFor _ a) fun _ _ => .pure _ _
  unfold styleDirectives
  cases (a.value.filter (·.kind != "string")).bind innerExpression? with
  | none => exact whole
  | some e =>
    dsimp only
    cases styleObject? e with
    | some object => exact .mapM fun pair _ => plain_styleDirective pair
    | none => exact .bind (.report rfl) fun _ _ => whole

/-- So are all items of an element. -/
theorem plain_itemAttributes (h : ElementHead) (inputType : Option String) (c : Controls)
    (item : Item) : Plain src (itemAttributes src model h inputType c item) := by
  cases item with
  | event e =>
    rw [itemAttributes]
    split
    · exact .pure _ _
    · exact .bind (plain_eventFor _ _ e) fun _ _ => .pure _ _
  | plain a =>
    rw [itemAttributes]
    cases c.bindings.lookup a.name with
    | some cell => exact .pure _ _
    | none =>
      dsimp only
      split
      · exact plain_styleDirectives a
      · exact .bind (plain_attributeFor _ a) fun _ _ => .pure _ _

/-- So is a prop. -/
theorem plain_instanceAttribute (a : Render.Attribute) :
    Plain src (instanceAttribute src model a) := by
  unfold instanceAttribute
  cases instanceRef? src model a with
  | some name => exact .pure _ _
  | none => exact plain_attributeFor _ a

/-! ### Placeholders in markup -/

mutual

/-- What the placeholders in a piece of markup keep. -/
def templateLeftovers : TemplateNode → List Leftover
  | .element _ _ children _ => markupLeftovers children
  | .component _ _ children => markupLeftovers children
  | .conditional branches none => branchesLeftovers branches
  | .conditional branches (some otherwise) =>
    branchesLeftovers branches ++ markupLeftovers otherwise
  | .each _ _ _ _ children => markupLeftovers children
  | .snippet _ _ children => markupLeftovers children
  | .placeholder p => [leftoverIn p]
  | _ => []

/-- What the placeholders in markup keep. -/
def markupLeftovers : List TemplateNode → List Leftover
  | [] => []
  | n :: rest => templateLeftovers n ++ markupLeftovers rest

/-- What the placeholders in the branches of a condition keep. -/
def branchesLeftovers : List IfBranch → List Leftover
  | [] => []
  | .mk _ children :: rest => markupLeftovers children ++ branchesLeftovers rest

end

/-- What markup leaves over, node by node. -/
theorem markupLeftovers_eq (ns : List TemplateNode) :
    markupLeftovers ns = ns.flatMap templateLeftovers := by
  induction ns with
  | nil => rfl
  | cons n ns ih => rw [markupLeftovers, ih, List.flatMap_cons]

theorem markupLeftovers_append (as bs : List TemplateNode) :
    markupLeftovers (as ++ bs) = markupLeftovers as ++ markupLeftovers bs := by
  rw [markupLeftovers_eq, List.flatMap_append, ← markupLeftovers_eq, ← markupLeftovers_eq]

/-! ### Attributes -/

section

variable (src : Source) (model : Model)

/-- What an attribute of an element becomes. -/
def itemMarkup (h : ElementHead) (item : Item) : Assembling (List TemplateAttribute) :=
  let inputType := fixedAttribute? src h.attributes "type"
  itemAttributes src model h inputType (controls src model h inputType) item

/-- Why a ref that is no name is left behind. -/
def callbackRef : String :=
  "callback refs have no direct Svelte equivalent; use bind:this or an attachment"

/-- What is kept of the attributes of an element, and of a ref that is no name. -/
def elementLeftovers (h : ElementHead) : List Leftover :=
  ((itemsOf h).flatMap fun item =>
      leftoversOf src item.node "" (refusalOf (itemMarkup src model h item)) [])
    ++ h.refExpression.toList.flatMap fun e => [leftoverOf src e "" callbackRef]

/-- What is kept of the attributes of a component instance. -/
def instanceLeftovers (h : InstanceHead) : List Leftover :=
  h.props.flatMap fun a =>
    leftoversOf src a.node "" (refusalOf (instanceAttribute src model a)) []

/-- Does the tree have all the parts that the attributes of an element need? -/
def elementComplete (h : ElementHead) : Bool :=
  (itemsOf h).all fun item => isComplete (itemMarkup src model h item)

/-- Does the tree have all the parts that the attributes of a component instance need? -/
def instanceComplete (h : InstanceHead) : Bool :=
  h.props.all fun a => isComplete (instanceAttribute src model a)

end

/-- Adding attributes is never refused. If they are, then what is left of their node is kept. -/
theorem ends_addAttributes {f : Option Refusal} {c : Bool} (n : Node)
    {build : Assembling (List TemplateAttribute)} (hbuild : Ends f c (fun _ => True) build)
    (done : Attributes) :
    Ends none c (fun a => markupLeftovers a.before =
        markupLeftovers done.before ++ leftoversOf src n "" f [])
      (addAttributes src n build done) := by
  refine ends_orElse_leave (R := fun ws (a : Attributes) =>
    markupLeftovers a.before = markupLeftovers done.before ++ ws) ?_ fun p => ?_
  · exact hbuild.map fun attributes _ => (List.append_nil _).symm
  · exact markupLeftovers_append _ _

/-- Adding the attributes for a list of nodes keeps what is left of each. -/
theorem ends_foldAttributes {γ : Type} {node : γ → Node} {f : γ → Option Refusal} {c : γ → Bool}
    {build : γ → Assembling (List TemplateAttribute)}
    (hbuild : ∀ b, Ends (f b) (c b) (fun _ => True) (build b)) (l : List γ) :
    Ends none (l.all c)
      (fun a => markupLeftovers a.before =
        l.flatMap fun b => leftoversOf src (node b) "" (f b) [])
      (l.foldlM (fun done b => addAttributes src (node b) (build b) done) {}) := by
  let kept (done : List γ) (a : Attributes) : Prop :=
    markupLeftovers a.before = done.flatMap fun b => leftoversOf src (node b) "" (f b) []
  have start : kept [] {} := rfl
  refine Ends.foldlM (I := kept) (fun done a b ha => ?_) l start
  refine (ends_addAttributes (node b) (hbuild b) a).mono (fun h => h) fun a' h => ?_
  show _ = _
  rw [h, ha, List.flatMap_append, List.flatMap_singleton]

/-- Attributes of an element leave over what is refused. -/
theorem ends_elementAttributes (h : ElementHead) :
    Ends none (elementComplete src model h)
      (fun a => markupLeftovers a.before = elementLeftovers src model h)
      (elementAttributes src model h) := by
  have reference (e : Node) :
      Ends none true (fun n => templateLeftovers n = [leftoverOf src e "" callbackRef]) (do
        return TemplateNode.placeholder (← leave src e callbackRef (some "ref") "")) :=
    (ends_leave e callbackRef (some "ref") "").map fun p hp => congrArg (fun w => [w]) hp
  have references := Ends.mapM_none (l := h.refExpression.toList) fun e _ => reference e
  rw [List.all_eq_true.2 fun _ _ => rfl] at references
  have plain (item : Item) : Plain src (itemMarkup src model h item) := plain_itemAttributes _ _ _ _
  rw [← Bool.and_true (elementComplete src model h)]
  refine (ends_foldAttributes (fun item => (plain item).steady.endsAnyhow) (itemsOf h)).andThen
    fun a ha => references.map fun placeholders hplaceholders => ?_
  rw [markupLeftovers_append, ha, markupLeftovers_eq, flatMap_eq_of_forall₂ hplaceholders]
  rfl

/-- So do those of a component. -/
theorem ends_instanceAttributes (h : InstanceHead) :
    Ends none (instanceComplete src model h)
      (fun a => markupLeftovers a.before = instanceLeftovers src model h)
      (instanceAttributes src model h) := by
  refine ends_foldAttributes (fun a => ?_) h.props
  exact (plain_instanceAttribute a).steady.endsAnyhow.map fun _ _ => trivial

/-! ### Pieces without other pieces in them -/

/-- A value is shown by plain steps. -/
theorem plain_valueMarkup (e : Node) : Plain src (valueMarkup src model e) := by
  unfold valueMarkup
  cases stringLiteral? src e with
  | some literal => exact .pure _ _
  | none => exact .bind (plain_expressionText e) fun _ _ => .pure _ _

/-- So is a slot. -/
theorem plain_slotMarkup (callee : String) (arguments : List Node) (isOptional : Bool) :
    Plain src (slotMarkup src model callee arguments isOptional) :=
  .bind (.mapM fun n _ => plain_expressionText n) fun _ _ => .pure _ _

/-- So is the key of a list. -/
theorem plain_listKey (h : ListHead) : Plain src (listKey src model h) := by
  unfold listKey
  cases h.key with
  | some key => exact .bind (plain_expressionText key) fun _ _ => .pure _ _
  | none => exact .bind (.report rfl) fun _ _ => .pure _ _

/-- So are its constants. -/
theorem plain_listConstants (h : ListHead) : Plain src (listConstants src model h) :=
  .mapM fun d _ => .bind (plain_converted d) fun _ _ => .pure _ _

/-- The step yields markup without placeholders. -/
abbrev YieldsPlainMarkup (x : Assembling (List TemplateNode)) : Prop :=
  Yields (fun ns => markupLeftovers ns = []) x

/-- A value leaves nothing over. -/
theorem yields_valueMarkup (e : Node) : YieldsPlainMarkup (valueMarkup src model e) := by
  unfold valueMarkup
  split
  · exact .pure rfl
  · exact .bind fun _ => .pure rfl

/-- Markup with a placeholder in its place if it is refused. -/
theorem ends_orPlaceholder {f : Option Refusal} {c : Bool} {ws : List Leftover} (n : Node)
    {build : Assembling (List TemplateNode)}
    (hbuild : Ends f c (fun ns => markupLeftovers ns = ws) build) :
    Ends none c (fun ns => markupLeftovers ns = leftoversOf src n "" f ws)
      (orPlaceholder src (some n) build) :=
  ends_orElse_leave (R := fun ws ns => markupLeftovers ns = ws) hbuild fun _ => rfl

/-! ### Elements, component instances and lists -/

section Content

variable {content : Assembling (List TemplateNode)} {c : Bool} {ws : List Leftover}

/-- An element ends as its content does. -/
theorem ends_elementMarkup (h : ElementHead)
    (hcontent : Ends none c (fun ns => markupLeftovers ns = ws) content) :
    Ends none (elementComplete src model h && c)
      (fun ns => markupLeftovers ns = elementLeftovers src model h ++ ws)
      (elementMarkup src model h content) := by
  refine (ends_elementAttributes h).andThen fun a ha => hcontent.map fun children hchildren => ?_
  rw [markupLeftovers_append, ha, ← hchildren]
  simp [markupLeftovers, templateLeftovers]

/-- So does a component. -/
theorem ends_instanceMarkup (h : InstanceHead)
    (hcontent : Ends none c (fun ns => markupLeftovers ns = ws) content) :
    Ends none (instanceComplete src model h && c)
      (fun ns => markupLeftovers ns = instanceLeftovers src model h ++ ws)
      (instanceMarkup src model h content) := by
  refine (Ends.modify _).thereafter fun _ _ => ?_
  refine (ends_instanceAttributes h).andThen fun a ha => hcontent.map fun children hchildren => ?_
  rw [markupLeftovers_append, ha, ← hchildren]
  simp [markupLeftovers, templateLeftovers]

/-- The construct for which a list is refused: its key, a declaration in it, or what it runs
over. -/
def listRefusal (src : Source) (model : Model) (h : ListHead) : Option Refusal :=
  (refusalOf (listKey src model h)).or
    ((refusalOf (listConstants src model h)).or (refusalOf (expressionText? src model h.iterable)))

/-- Does the tree have all the parts that a list needs, given whether it has those of the items? -/
def listComplete (src : Source) (model : Model) (h : ListHead) (items : Bool) : Bool :=
  isComplete (listKey src model h) && (isComplete (listConstants src model h)
    && (items && isComplete (expressionText? src model h.iterable)))

/-- Constants leave nothing over. -/
theorem yields_listConstants (h : ListHead) :
    YieldsPlainMarkup (listConstants src model h) := by
  have each (d : Node) : Yields (fun n => templateLeftovers n = [])
      (do return TemplateNode.constant (← converted src model d)) :=
    .bind fun _ => .pure rfl
  intro p constants q hrun
  rw [markupLeftovers_eq, flatMap_eq_of_forall₂ (Yields.mapM (fun d _ => each d) hrun)]
  simp

/-- A list is refused for its head, or it ends as its items do. -/
theorem ends_listMarkup (h : ListHead)
    (hcontent : Ends none c (fun ns => markupLeftovers ns = ws) content) :
    Ends (listRefusal src model h) (listComplete src model h c)
      (fun ns => markupLeftovers ns = ws)
      (listMarkup src model h content) := by
  refine (plain_listKey h).steady.endsAnyhow.bind fun (index, key) _ => ?_
  refine ((plain_listConstants h).steady.ends (yields_listConstants h)).bind fun constants hc => ?_
  refine hcontent.andThen fun children hchildren => ?_
  refine (plain_expressionText? h.iterable).steady.endsAnyhow.map fun _ _ => ?_
  simp [markupLeftovers, templateLeftovers, markupLeftovers_append, hc, hchildren]

end Content

/-! ### Render trees -/

section

variable (src : Source) (model : Model)

mutual

/-- The construct for which a block of branches is refused: one of their conditions. -/
def blockRefusal : RenderNode → Option Refusal
  | .conditional condition _ alternate =>
    (refusalOf (expressionText? src model condition)).or (alternateRefusal alternate)
  | _ => none

/-- The construct for which the further branches of a condition are refused. -/
def alternateRefusal : Option RenderNode → Option Refusal
  | none => none
  | some n => blockRefusal n

end

mutual

/-- Does the tree have all the parts that a piece of a render tree needs? -/
def nodeComplete : RenderNode → Bool
  | .fragment children => nodesComplete children
  | .text _ => true
  | .unsupported _ _ _ => true
  | .expression e => isComplete (valueMarkup src model e)
  | .rawHtml e => isComplete (expressionText src model e)
  | .element h children => elementComplete src model h && nodesComplete children
  | .component h slots => instanceComplete src model h && slotsComplete slots
  | .conditional condition consequent alternate =>
    isComplete (expressionText? src model condition)
      && (nodeComplete consequent && alternateComplete alternate)
  | .list h body => listComplete src model h (nodeComplete body)
  | .slot _ callee arguments isOptional =>
    isComplete (slotMarkup src model callee arguments isOptional)

/-- Does the tree have all the parts that several pieces need? -/
def nodesComplete : List RenderNode → Bool
  | [] => true
  | n :: rest => nodeComplete n && nodesComplete rest

/-- Does the tree have all the parts that the further branches of a condition need? -/
def alternateComplete : Option RenderNode → Bool
  | none => true
  | some (.conditional condition consequent alternate) =>
    isComplete (expressionText? src model condition)
      && (nodeComplete consequent && alternateComplete alternate)
  | some other => nodeComplete other

/-- Does the tree have all the parts that the markup handed to a component instance needs? -/
def slotsComplete : List SlotContent → Bool
  | [] => true
  | .mk _ _ body :: rest => nodeComplete body && slotsComplete rest

end

mutual

/-- What is kept of a piece of a render tree. -/
def nodeLeftovers : RenderNode → List Leftover
  | .fragment children => nodesLeftovers children
  | .text _ => []
  | .unsupported n reason _ => [leftoverOf src n "" reason]
  | .expression e => leftoversOf src e "" (refusalOf (valueMarkup src model e)) []
  | .rawHtml e => leftoversOf src e "" (refusalOf (expressionText src model e)) []
  | .element h children => elementLeftovers src model h ++ nodesLeftovers children
  | .component h slots => instanceLeftovers src model h ++ slotsLeftovers slots
  | .conditional none _ _ => []
  | .conditional (some condition) consequent alternate =>
    let refusal := (refusalOf (expressionText src model condition)).or
      (alternateRefusal src model alternate)
    leftoversOf src condition "" refusal (nodeLeftovers consequent ++ alternateLeftovers alternate)
  | .list h body => leftoversOf src h.node "" (listRefusal src model h) (nodeLeftovers body)
  | .slot _ _ [] _ => []
  | .slot _ callee (first :: rest) isOptional =>
    let refusal := refusalOf (slotMarkup src model callee (first :: rest) isOptional)
    leftoversOf src first "" refusal []

/-- What is kept of several pieces. -/
def nodesLeftovers : List RenderNode → List Leftover
  | [] => []
  | n :: rest => nodeLeftovers n ++ nodesLeftovers rest

/-- What is kept of the further branches of a condition. -/
def alternateLeftovers : Option RenderNode → List Leftover
  | none => []
  | some (.conditional _ consequent alternate) =>
    nodeLeftovers consequent ++ alternateLeftovers alternate
  | some other => nodeLeftovers other

/-- What is kept of the markup handed to a component instance. -/
def slotsLeftovers : List SlotContent → List Leftover
  | [] => []
  | .mk _ _ body :: rest => nodeLeftovers body ++ slotsLeftovers rest

end

end

/-- Markup keeps the same whether it is handed over under a name or not. -/
theorem markupLeftovers_handedMarkup (name : String) (parameters : Option Node)
    (body : List TemplateNode) :
    markupLeftovers (handedMarkup src name parameters body) = markupLeftovers body := by
  unfold handedMarkup
  split
  · rfl
  · simp [markupLeftovers, templateLeftovers]

/-- A block is made of the branches of its conditions, or left as a placeholder. -/
theorem nodeMarkup_conditional (condition : Option Node) (consequent : RenderNode)
    (alternate : Option RenderNode) :
    nodeMarkup src model (.conditional condition consequent alternate) =
      orPlaceholder src condition (do
        let made ← alternateMarkup src model (some (.conditional condition consequent alternate))
        return [.conditional made.1 made.2]) := by
  rw [nodeMarkup, alternateMarkup]
  simp only [bind_assoc, pure_bind]

/-- What the placeholders in the branches of a condition keep, and those where none holds. -/
def alternateKept : List IfBranch × Option (List TemplateNode) → List Leftover
  | (branches, otherwise) => branchesLeftovers branches ++ (otherwise.map markupLeftovers).getD []

/-- A block leaves over what its branches do. -/
theorem templateLeftovers_conditional (branches : List IfBranch)
    (otherwise : Option (List TemplateNode)) :
    templateLeftovers (.conditional branches otherwise) = alternateKept (branches, otherwise) := by
  cases otherwise with
  | none => simp [templateLeftovers, alternateKept]
  | some ns => rfl

theorem alternateKept_cons (shown : String) (content : List TemplateNode)
    (branches : List IfBranch) (otherwise : Option (List TemplateNode)) :
    alternateKept (.mk shown content :: branches, otherwise) =
      markupLeftovers content ++ alternateKept (branches, otherwise) := by
  simp [alternateKept, branchesLeftovers]

mutual

/-- The markup of a piece of a render tree is never refused, and keeps what the piece leaves. -/
theorem ends_nodeMarkup (n : RenderNode) :
    Ends none (nodeComplete src model n)
      (fun ns => markupLeftovers ns = nodeLeftovers src model n)
      (nodeMarkup src model n) := by
  cases n with
  | fragment children =>
    rw [nodeMarkup, nodeComplete, nodeLeftovers]
    exact ends_nodesMarkup children
  | text value =>
    rw [nodeMarkup, nodeComplete]
    exact .pure (by simp [markupLeftovers, templateLeftovers, nodeLeftovers])
  | unsupported n reason construct =>
    rw [nodeMarkup, nodeComplete, nodeLeftovers]
    exact (ends_leave n reason construct "").map fun p hp => congrArg (fun w => [w]) hp
  | expression e =>
    rw [nodeMarkup, nodeComplete, nodeLeftovers]
    exact ends_orPlaceholder e ((plain_valueMarkup e).steady.ends (yields_valueMarkup e))
  | rawHtml e =>
    rw [nodeMarkup, nodeComplete, nodeLeftovers]
    refine ends_orPlaceholder e ?_
    exact (plain_expressionText e).steady.endsAnyhow.map fun _ _ => rfl
  | element h children =>
    -- Attributes are caught one by one, so no placeholder is left for a whole element.
    rw [nodeMarkup, nodeComplete, nodeLeftovers]
    exact ends_orPlaceholder h.node (ends_elementMarkup h (ends_nodesMarkup children))
  | component h slots =>
    rw [nodeMarkup, nodeComplete, nodeLeftovers]
    exact ends_orPlaceholder h.node (ends_instanceMarkup h (ends_slotsMarkup slots))
  | conditional condition consequent alternate =>
    cases condition with
    | none =>
      -- Without a condition the tree lacks a part, which is not caught.
      rw [nodeMarkup, nodeComplete]
      exact Ends.orElse (f := none) (Q := fun _ => False) (fun _ => rfl)
        (fun _ _ h => h.elim) (fun _ h => nomatch h)
    | some condition =>
      rw [nodeMarkup, nodeComplete, nodeLeftovers]
      -- A branch further down that is refused takes all branches with it.
      refine ends_orPlaceholder condition ?_
      refine (plain_expressionText? (some condition)).steady.endsAnyhow.bind fun shown _ => ?_
      refine (ends_nodeMarkup consequent).andThen fun content hcontent => ?_
      refine (ends_alternateMarkup alternate).map fun (branches, otherwise) halternate => ?_
      rw [markupLeftovers, markupLeftovers, List.append_nil, templateLeftovers_conditional,
        alternateKept_cons, hcontent, halternate]
  | list h body =>
    rw [nodeMarkup, nodeComplete, nodeLeftovers]
    exact ends_orPlaceholder h.node (ends_listMarkup h (ends_nodeMarkup body))
  | slot name callee arguments isOptional =>
    cases arguments with
    | nil =>
      -- With nothing to convert there is nothing to refuse.
      rw [nodeMarkup, nodeComplete, nodeLeftovers]
      exact Ends.orElse (f := none) (Q := fun ns => markupLeftovers ns = []) (fun _ => ⟨rfl, rfl⟩)
        (fun _ _ h => h) (fun _ h => nomatch h)
    | cons first rest =>
      rw [nodeMarkup, nodeComplete, nodeLeftovers]
      refine ends_orPlaceholder first ?_
      exact (plain_slotMarkup _ _ _).steady.ends (.bind fun _ => .pure rfl)

/-- So it is for nodes in a row. -/
theorem ends_nodesMarkup (ns : List RenderNode) :
    Ends none (nodesComplete src model ns)
      (fun out => markupLeftovers out = nodesLeftovers src model ns)
      (nodesMarkup src model ns) := by
  cases ns with
  | nil =>
    rw [nodesMarkup, nodesComplete]
    exact .pure rfl
  | cons n rest =>
    rw [nodesMarkup, nodesComplete, nodesLeftovers]
    refine (ends_nodeMarkup n).andThen fun first hfirst => ?_
    refine (ends_nodesMarkup rest).map fun others hothers => ?_
    rw [markupLeftovers_append, hfirst, hothers]

/-- So it is for branches. -/
theorem ends_alternateMarkup (alternate : Option RenderNode) :
    Ends (alternateRefusal src model alternate) (alternateComplete src model alternate)
      (fun out => alternateKept out = alternateLeftovers src model alternate)
      (alternateMarkup src model alternate) := by
  cases alternate with
  | none =>
    rw [alternateMarkup, alternateRefusal, alternateComplete, alternateLeftovers]
    exact Ends.pure (Q := fun out => alternateKept out = []) rfl
  | some n =>
    cases n with
    -- A condition where none holds goes on with branches of its own.
    | conditional condition consequent alternate =>
      rw [alternateMarkup, alternateRefusal, blockRefusal, alternateComplete, alternateLeftovers]
      refine (plain_expressionText? condition).steady.endsAnyhow.bind fun shown _ => ?_
      refine (ends_nodeMarkup consequent).andThen fun content hcontent => ?_
      refine (ends_alternateMarkup alternate).map fun (branches, otherwise) halternate => ?_
      rw [alternateKept_cons, hcontent, halternate]
    | _ =>
      rw [alternateMarkup, alternateRefusal, blockRefusal, alternateComplete, alternateLeftovers]
      · exact (ends_nodeMarkup _).map fun content hcontent => hcontent
      all_goals simp

/-- So it is for slots. -/
theorem ends_slotsMarkup (slots : List SlotContent) :
    Ends none (slotsComplete src model slots)
      (fun out => markupLeftovers out = slotsLeftovers src model slots)
      (slotsMarkup src model slots) := by
  cases slots with
  | nil =>
    rw [slotsMarkup, slotsComplete]
    exact .pure rfl
  | cons slot rest =>
    cases slot with
    | mk name parameters body =>
      rw [slotsMarkup, slotsComplete, slotsLeftovers]
      refine (ends_nodeMarkup body).andThen fun content hcontent => ?_
      refine (ends_slotsMarkup rest).map fun others hothers => ?_
      rw [markupLeftovers_append, markupLeftovers_handedMarkup, hcontent, hothers]

end

end Sveltify.Assembly
