import Sveltify.Proofs.Assembly.Layout
import Sveltify.Svelte.Script.Printer

namespace Sveltify.Assembly

open Analysis Component Expression Svelte
open Render (ElementHead InstanceHead ListHead RenderNode Snippet SlotContent)

/-!
# The language of the script

Only three declarations look at the language of the script: those of the props, of derived values
and of refs, which then carry their types. Where there are no types, the component is assembled in
the same way in both languages.

* `convert_typescript`: expressions are converted alike;
* `nodeMarkup_typescript`: so is markup;
* `isUntyped`: no type was recorded in the model;
* `declarationGroups_typescript`: without types, declarations are alike;
* `toSvelte_typescript`: so is the whole component, but for the note of its language;
* `PrintsAlike`: an entry that is printed alike in both languages; `printsAlike_of_toSvelte`: so are
  all entries of a component without types.
-/

section Alike

variable (src : Source) (model : Model) (b : Bool)

/-! ### Converted text -/

/-- The language makes no difference to a conversion. -/
theorem convert_typescript (subs : Substitution) (isStatement : Bool) (n : Node) :
    Expression.convert src { model with typescript := b } subs isStatement n
      = Expression.convert src model subs isStatement n := by
  -- The new value in the call of a setter is a smaller node.
  induction hsize : n.size using Nat.strongRecOn generalizing n subs isStatement with
  | ind size ih =>
    subst hsize
    rw [Expression.convert, Expression.convert]
    congr 1
    funext parent c hc
    have same : setterCall? { model with typescript := b } c = setterCall? model c := rfl
    rw [same]
    cases setterCall? model c with
    | none => rfl
    | some cell =>
      dsimp only
      split
      · rfl
      · rename_i argument hargument
        split
        · rfl
        · rename_i v hv
          have smaller : v.node.size < n.size := by
            have := size_newValue src hv
            have := size_argumentsOf hargument
            omega
          rw [ih _ smaller _ _ _ rfl]

/-- Converting a node does not ask for the language. -/
@[simp] theorem converted_typescript :
    converted src { model with typescript := b } = converted src model := by
  funext n
  rw [converted, convert_typescript]
  rfl

/-- Nor does converting it to text. -/
@[simp] theorem convertedText_typescript :
    convertedText src { model with typescript := b } = convertedText src model := by
  funext isStatement n
  unfold convertedText convertLines
  rw [convert_typescript]

/-- So it is where the node may be missing. -/
@[simp] theorem convertedText?_typescript :
    convertedText? src { model with typescript := b } = convertedText? src model := by
  funext n
  cases n <;> simp [convertedText?]

/-- The text of an expression is the same. -/
@[simp] theorem expressionText_typescript :
    expressionText src { model with typescript := b } = expressionText src model := by
  funext n
  simp [expressionText]

/-- So it is where there may be no expression. -/
@[simp] theorem expressionText?_typescript :
    expressionText? src { model with typescript := b } = expressionText? src model := by
  funext n
  simp [expressionText?]

/-! ### Attributes -/

/-- The same attribute is made in both languages. -/
@[simp] theorem attributeFor_typescript :
    attributeFor src { model with typescript := b } = attributeFor src model := by
  funext name a
  simp [attributeFor]

/-- Styles are the same. -/
@[simp] theorem styleDirectives_typescript :
    styleDirectives src { model with typescript := b } = styleDirectives src model := by
  have directive :
      styleDirective src { model with typescript := b } = styleDirective src model := by
    funext pair
    simp [styleDirective]
  funext a
  simp [styleDirectives, domAttribute, directive]

/-- The attributes of an element are the same. -/
@[simp] theorem elementAttributes_typescript :
    elementAttributes src { model with typescript := b } = elementAttributes src model := by
  have bound : controls src { model with typescript := b } = controls src model := rfl
  have items : itemAttributes src { model with typescript := b } = itemAttributes src model := by
    funext h inputType c item
    cases item with
    | event e => simp [itemAttributes, eventFor]
    | plain a => simp [itemAttributes, domAttribute]
  funext h
  simp [elementAttributes, bound, items]

/-- So are those of a component. -/
@[simp] theorem instanceAttributes_typescript :
    instanceAttributes src { model with typescript := b } = instanceAttributes src model := by
  have handed : instanceRef? src { model with typescript := b } = instanceRef? src model := rfl
  funext h
  simp [instanceAttributes, instanceAttribute, handed]

/-! ### Markup -/

/-- A list is the same, if its content is. -/
@[simp] theorem listMarkup_typescript :
    listMarkup src { model with typescript := b } = listMarkup src model := by
  have index : indexFor src { model with typescript := b } = indexFor src model := rfl
  funext h body
  simp [listMarkup, listKey, listConstants, index]

mutual

/-- Every render tree has the same markup in both languages. -/
@[simp] theorem nodeMarkup_typescript (n : RenderNode) :
    nodeMarkup src { model with typescript := b } n = nodeMarkup src model n := by
  cases n with
  | fragment children => exact nodesMarkup_typescript children
  | text value => rfl
  | unsupported n reason construct => rfl
  | expression e => simp [nodeMarkup, valueMarkup]
  | rawHtml e => simp [nodeMarkup]
  | element h children => simp [nodeMarkup, elementMarkup, nodesMarkup_typescript children]
  | component h slots => simp [nodeMarkup, instanceMarkup, slotsMarkup_typescript slots]
  | conditional condition consequent alternate =>
    simp [nodeMarkup, nodeMarkup_typescript consequent, alternateMarkup_typescript alternate]
  | list h body => simp [nodeMarkup, nodeMarkup_typescript body]
  | slot node callee arguments isOptional => simp [nodeMarkup, slotMarkup]

/-- So it is for nodes in a row. -/
theorem nodesMarkup_typescript (ns : List RenderNode) :
    nodesMarkup src { model with typescript := b } ns = nodesMarkup src model ns := by
  cases ns with
  | nil => rfl
  | cons n rest =>
    simp [nodesMarkup, nodeMarkup_typescript n, nodesMarkup_typescript rest]

/-- So it is for branches. -/
theorem alternateMarkup_typescript (n : Option RenderNode) :
    alternateMarkup src { model with typescript := b } n = alternateMarkup src model n := by
  cases n with
  | none => rfl
  | some n =>
    cases n with
    | conditional condition consequent alternate =>
      simp [alternateMarkup, nodeMarkup_typescript consequent, alternateMarkup_typescript alternate]
    | _ => simp [alternateMarkup, nodeMarkup_typescript]

/-- So it is for slots. -/
theorem slotsMarkup_typescript (slots : List SlotContent) :
    slotsMarkup src { model with typescript := b } slots = slotsMarkup src model slots := by
  cases slots with
  | nil => rfl
  | cons s rest =>
    obtain ⟨name, parameters, body⟩ := s
    simp [slotsMarkup, nodeMarkup_typescript body, slotsMarkup_typescript rest]

end

/-- Snippets are the same. -/
@[simp] theorem snippetMarkup_typescript :
    snippetMarkup src { model with typescript := b } = snippetMarkup src model := by
  funext s
  simp [snippetMarkup]

/-- A tree that may be missing has the same markup. -/
@[simp] theorem optionalMarkup_typescript :
    optionalMarkup src { model with typescript := b } = optionalMarkup src model := by
  funext n
  cases n <;> simp [optionalMarkup]

/-! ### Declarations without types -/

/-- Types of state are written when the script is printed. -/
@[simp] theorem stateNodes_typescript (indent : String) :
    stateNodes src { model with typescript := b } indent = stateNodes src model indent := by
  funext cell
  simp [stateNodes, plainInitial, lazyInitial, reducerInitial, dispatchFunction]

/-- Effects are the same. -/
@[simp] theorem effectNodes_typescript :
    effectNodes src { model with typescript := b } = effectNodes src model := by
  have calls : callsSetter { model with typescript := b } = callsSetter model := rfl
  funext e
  simp [effectNodes, effectDeclaration, effectExpression, calls]

/-- Contexts are read in the same way. -/
@[simp] theorem consumerNodes_typescript :
    consumerNodes src { model with typescript := b } = consumerNodes src model := by
  funext u
  simp [consumerNodes]

/-- Contexts are provided in the same way. -/
@[simp] theorem providerNodes_typescript :
    providerNodes src { model with typescript := b } = providerNodes src model := by
  funext u
  simp [providerNodes]

/-- Local statements are the same. -/
@[simp] theorem localNodes_typescript (indent : String) :
    localNodes src { model with typescript := b } indent = localNodes src model indent := by
  funext l
  simp [localNodes, callbackText, functionBody, parameterList]

/-- All contexts together are provided in the same way. -/
@[simp] theorem provisionNodes_typescript :
    provisionNodes src { model with typescript := b } = provisionNodes src model := by
  simp [provisionNodes]

/-- Statements around the component are the same. -/
@[simp] theorem moduleParts_typescript :
    moduleParts src { model with typescript := b } = moduleParts src model := by
  have item : addItem src { model with typescript := b } = addItem src model := by
    funext keys parts item
    simp [addItem, statementGroup]
  simp [moduleParts, item]

end Alike

/-! ### Declarations with types -/

/-- No type was recorded: neither of the props, nor of a derived value, a cell or a ref. -/
def isUntyped (model : Model) : Bool :=
  model.props.typeText.isNone && model.derived.values.all (·.typeText.isNone)
    && model.state.values.all (·.typeArguments.isNone)
    && model.refs.values.all (·.typeArguments.isNone)

section Untyped

variable {src : Source} {model : Model} {indent : String} (b : Bool)

/-- Props without a type are declared alike. -/
theorem propsDeclaration_typescript (h : model.props.typeText = none) :
    propsDeclaration src { model with typescript := b } = propsDeclaration src model := by
  have entries : namedEntries src { model with typescript := b } = namedEntries src model := by
    have entry : propEntry src { model with typescript := b } = propEntry src model := by
      funext p
      simp [propEntry]
    simp [namedEntries, entry]
  have refs : refEntries { model with typescript := b } = refEntries model := rfl
  have rest : restEntries { model with typescript := b } = restEntries model := rfl
  simp [propsDeclaration, h, entries, refs, rest]

/-- So are derived values without a type. -/
theorem derivedNodes_typescript {d : DerivedBinding} (h : d.typeText = none) :
    derivedNodes src { model with typescript := b } d = derivedNodes src model d := by
  simp [derivedNodes, h]

/-- So are refs without a type. -/
theorem refNodes_typescript {r : RefBinding} (h : r.typeArguments = none) :
    refNodes src { model with typescript := b } r = refNodes src model r := by
  simp [refNodes, h]

/-- All declarations without types are alike. -/
theorem declarationGroups_typescript (h : isUntyped model = true) :
    declarationGroups src { model with typescript := b } indent
      = declarationGroups src model indent := by
  simp only [isUntyped, Bool.and_eq_true, List.all_eq_true, Option.isNone_iff_eq_none] at h
  obtain ⟨⟨⟨-, hderived⟩, -⟩, hrefs⟩ := h
  have derived : (model.derived.values.mapM fun d =>
        groupFor src d.node "const " (derivedNodes src { model with typescript := b } d))
      = model.derived.values.mapM fun d =>
        groupFor src d.node "const " (derivedNodes src model d) :=
    mapM_congr fun d hd => by rw [derivedNodes_typescript b (hderived d hd)]
  have refs : ((model.refs.values.filter (!·.isForwarded)).mapM fun r =>
        groupFor src r.node "const " (refNodes src { model with typescript := b } r))
      = (model.refs.values.filter (!·.isForwarded)).mapM fun r =>
        groupFor src r.node "const " (refNodes src model r) :=
    mapM_congr fun r hr => by rw [refNodes_typescript b (hrefs r (List.mem_filter.1 hr).1)]
  simp [declarationGroups, derived, refs]

/-- Without types the component is assembled alike, but for the note of its language. -/
theorem assembleComponent_typescript (h : isUntyped model = true) :
    assembleComponent src { model with typescript := b } indent
      = (fun c => { c with typescript := b }) <$> assembleComponent src model indent := by
  have hprops : model.props.typeText = none := by
    simp only [isUntyped, Bool.and_eq_true, Option.isNone_iff_eq_none] at h
    exact h.1.1.1
  simp [assembleComponent, propsDeclaration_typescript b hprops, declarationGroups_typescript b h]

/-- A model without types becomes the same component. -/
theorem toSvelte_typescript (h : isUntyped model = true) :
    toSvelte src { model with typescript := b } indent
      = (fun c => { c with typescript := b }) <$> toSvelte src model indent := by
  funext reports
  unfold toSvelte
  rw [assembleComponent_typescript b h]
  simp only [Functor.map, EStateM.map]
  cases assembleComponent src model indent { reports } <;> rfl

end Untyped

/-! ### Scripts in print -/

/-- The entry is printed alike in both languages. -/
def PrintsAlike (entry : ScriptNode) : Prop :=
  ∀ indent, entry.lines indent true = entry.lines indent false

section PrintsAlike

variable {src : Source} {model : Model} {indent : String}

/-- State without a type is printed alike. -/
theorem printsAlike_state {d : StateDeclaration} (h : d.typeArguments = none) :
    PrintsAlike (.state d) := by
  intro indent
  simp [ScriptNode.lines, StateDeclaration.text, h, withArguments, nonEmpty?]

/-- So is a ref without a type. -/
theorem printsAlike_ref {d : RefDeclaration} (h : d.typeArguments = none) :
    PrintsAlike (.ref d) := by
  intro indent
  simp [ScriptNode.lines, RefDeclaration.text, h]

/-- Statements around the component are printed alike. -/
theorem buildsAlike_itemPiece (item : ModuleItem) :
    (itemPiece src model item).BuildsOnly PrintsAlike :=
  .bind fun _ => .pure (by simp [PrintsAlike, ScriptNode.lines])

/-- State without a type makes entries that are printed alike. -/
theorem buildsAlike_statePiece {b : StateBinding} (h : b.typeArguments = none) :
    (statePiece src model indent b).BuildsOnly PrintsAlike := by
  have cell (initial : Option String) :
      PrintsAlike (.state { name := b.name, initial, typeArguments := b.typeArguments }) :=
    printsAlike_state h
  show Yields _ (stateNodes src model indent b)
  unfold stateNodes
  cases b.kind with
  | plain => exact .bind fun initial => .pure (by simpa using cell initial)
  | reducer =>
    refine .bind fun initial => ?_
    cases nonEmpty? b.dispatch with
    | none => exact .pure (by simpa using cell initial)
    | some dispatch =>
      have function : Yields PrintsAlike (dispatchFunction src model indent b dispatch) :=
        .bind fun _ => .bind fun _ => .bind fun _ => .pure fun _ => rfl
      exact function.andThen fun entry hentry => .pure (by simpa using ⟨cell initial, hentry⟩)

/-- So do local statements. -/
theorem buildsAlike_localPiece (l : LocalDeclaration) :
    (localPiece src model indent l).BuildsOnly PrintsAlike := by
  show Yields _ (localNodes src model indent l)
  unfold localNodes
  cases l.kind with
  | constant | «variable» =>
    dsimp only
    split <;> exact .bind fun _ => .pure (by simp [PrintsAlike, ScriptNode.lines])
  | _ => exact .bind fun _ => .pure (by simp [PrintsAlike, ScriptNode.lines])

/-- Without types all pieces are printed alike. -/
theorem buildsAlike_of_mem (h : isUntyped model = true) {p : Piece}
    (hp : p ∈ orderedPieces src model indent) : p.BuildsOnly PrintsAlike := by
  simp only [isUntyped, Bool.and_eq_true, List.all_eq_true, Option.isNone_iff_eq_none] at h
  obtain ⟨⟨-, hstate⟩, hrefs⟩ := h
  simp only [orderedPieces, declarationPieces, kindPieces, List.mem_append, List.mem_map] at hp
  rcases hp with ⟨item, -, rfl⟩ |
    (((((⟨b, hb, rfl⟩ | ⟨d, -, rfl⟩) | ⟨e, -, rfl⟩) | ⟨u, -, rfl⟩) | ⟨r, hr, rfl⟩) | ⟨l, -, rfl⟩)
  · exact buildsAlike_itemPiece item
  · exact buildsAlike_statePiece (hstate b hb)
  · exact .bind fun _ => .pure (by simp [PrintsAlike, ScriptNode.lines])
  · exact .bind fun _ => .bind fun _ => .pure (by simp [PrintsAlike, ScriptNode.lines])
  · refine .bind fun _ => .bind fun _ => .bind fun _ => .pure ?_
    simp [PrintsAlike, ScriptNode.lines]
  · have none : r.typeArguments = none := hrefs r (List.mem_filter.1 hr).1
    refine .bind fun _ => .pure ?_
    simpa using printsAlike_ref (by simp [none])
  · exact buildsAlike_localPiece l

/-- Without types both scripts of a component are printed alike. -/
theorem printsAlike_of_toSvelte (h : isUntyped model = true) {reports reports' : List Report}
    {c : SvelteComponent} (hrun : toSvelte src model indent reports = .ok c reports') :
    (∀ entry ∈ c.script, PrintsAlike entry) ∧ ∀ entry ∈ c.moduleScript, PrintsAlike entry := by
  have left (ph : Placeholder) : PrintsAlike (.placeholder ph) := fun _ => rfl
  constructor
  · obtain ⟨l⟩ := exists_layout hrun
    have provider (u : ContextUse) : (providerPiece src model u).BuildsOnly PrintsAlike :=
      .bind fun _ => .pure (by simp [PrintsAlike, ScriptNode.lines])
    have all := l.all left buildsAlike_itemPiece (fun _ hp => buildsAlike_of_mem h hp) provider
    intro entry hentry
    rw [l.parts] at hentry
    simp only [List.mem_append, List.mem_map] at hentry all
    rcases hentry with ((htype | ⟨d, -, rfl⟩) | hgroup) | hprovision
    · exact all _ (.inl (.inl htype))
    · exact fun _ => rfl
    · exact all _ (.inl (.inr hgroup))
    · exact all _ (.inr hprovision)
  · refine all_of_written left (moduleScript_written hrun) fun p hp => ?_
    obtain ⟨item, -, rfl⟩ := List.mem_map.1 hp
    exact buildsAlike_itemPiece item

end PrintsAlike

end Sveltify.Assembly
