import Sveltify.Proofs.Assembly.Placeholders

namespace Sveltify.Assembly

open Analysis Component Expression Svelte
open Render (ElementHead InstanceHead ListHead RenderNode SlotContent)

/-!
# What the assembly changes

All that the steps of the assembly change is what they share: they add reports, needed names and
used components. A relation that holds along every single one of these changes holds along every
step, also along one that fails.

* `Along.bind`, `Along.orElse`: steps in a row, and a step that catches refusals;
* `Bears src R`: the relation holds along each single change;
* `Bears.along_groupFor`, `Bears.along_nodeMarkup`, `Bears.along_moduleParts`: so it does along
  groups of script entries, markup and the statements around a component;
* `Bears.along_assembleComponent`: and along the assembly of a whole component.
-/

variable {src : Source} {model : Model} {indent : String} {α β γ : Type}
  {R S : Progress → Progress → Prop}

/-! ### Steps in a row -/

/-- A refused construct is handled. -/
theorem orElse_of_caught {x : Assembling α} {handle : Refusal → Assembling α} {p q : Progress}
    {e : Failure} {r : Refusal} (hx : x p = .error e q) (hr : refusedConstruct? e = some r) :
    orElse x handle p = handle r q := by
  show EStateM.tryCatch x _ p = _
  simp only [EStateM.tryCatch, hx, hr]
  rfl

/-- Any other failure goes through. -/
theorem orElse_of_uncaught {x : Assembling α} {handle : Refusal → Assembling α} {p q : Progress}
    {e : Failure} (hx : x p = .error e q) (hr : refusedConstruct? e = none) :
    orElse x handle p = .error e q := by
  show EStateM.tryCatch x _ p = _
  simp only [EStateM.tryCatch, hx, hr]
  rfl

namespace Along

/-- Two steps in a row. What holds along the first is not undone by the second. -/
theorem bind {x : Assembling α} {f : α → Assembling β} (hx : Along R x)
    (hf : ∀ a, Along S (f a)) (h : ∀ {p q r}, R p q → S q r → R p r) : Along R (x >>= f) where
  ok := by
    intro p b q hrun
    obtain ⟨a, p₁, h₁, h₂⟩ := bind_ok_iff.1 hrun
    exact h (hx.ok h₁) ((hf a).ok h₂)
  error := by
    intro p e q hrun
    rcases bind_error_iff.1 hrun with h₁ | ⟨a, p₁, h₁, h₂⟩
    · exact hx.error h₁
    · exact h (hx.ok h₁) ((hf a).error h₂)

/-- A step that catches refusals. What holds along the step is not undone by dealing with its
refusal. -/
theorem orElse {x : Assembling α} {handle : Refusal → Assembling α} (hx : Along R x)
    (hhandle : ∀ r, Along S (handle r)) (h : ∀ {p q r}, R p q → S q r → R p r) :
    Along R (orElse x handle) where
  ok := by
    intro p a q hrun
    cases hp : x p with
    | ok b p₁ =>
      rw [Ends.orElse_of_ok hp] at hrun
      cases hrun
      exact hx.ok hp
    | error e p₁ =>
      -- The state stays as the step has left it, whether its failure is caught or not.
      cases hr : refusedConstruct? e with
      | some r =>
        rw [orElse_of_caught hp hr] at hrun
        exact h (hx.error hp) ((hhandle r).ok hrun)
      | none =>
        rw [orElse_of_uncaught hp hr] at hrun
        cases hrun
  error := by
    intro p e q hrun
    cases hp : x p with
    | ok b p₁ =>
      rw [Ends.orElse_of_ok hp] at hrun
      cases hrun
    | error e' p₁ =>
      cases hr : refusedConstruct? e' with
      | some r =>
        rw [orElse_of_caught hp hr] at hrun
        exact h (hx.error hp) ((hhandle r).error hrun)
      | none =>
        rw [orElse_of_uncaught hp hr] at hrun
        cases hrun
        exact hx.error hp

end Along

/-! ### Single changes -/

/-- The relation holds along each change that a step of the assembly is made of. -/
structure Bears (src : Source) (R : Progress → Progress → Prop) : Prop extends Absorbs src R where
  leave : ∀ p r, R p { p with reports := p.reports ++ [r] }
  useTags : ∀ p tags, R p { p with componentTags := p.componentTags ++ tags }

namespace Bears

theorem along_pure (h : Bears src R) (a : α) : Along R (pure a) :=
  Plain.along (.pure a a) h.toAbsorbs

theorem along_bind (h : Bears src R) {x : Assembling α} {f : α → Assembling β} (hx : Along R x)
    (hf : ∀ a, Along R (f a)) : Along R (x >>= f) :=
  hx.bind hf h.trans

/-- The result of a step may be changed. -/
theorem along_map (h : Bears src R) {x : Assembling α} {f : α → β} (hx : Along R x) :
    Along R (x >>= fun a => pure (f a)) :=
  h.along_bind hx fun _ => h.along_pure _

/-- Steps in a row. -/
theorem along_mapM (h : Bears src R) {f : γ → Assembling α} (hf : ∀ c, Along R (f c))
    (l : List γ) : Along R (l.mapM f) := by
  induction l with
  | nil => exact h.along_pure _
  | cons c l ih =>
    rw [List.mapM_cons]
    exact h.along_bind (hf c) fun _ => h.along_map ih

/-- Steps that hand a value on. -/
theorem along_foldlM (h : Bears src R) {f : α → γ → Assembling α} (hf : ∀ a c, Along R (f a c))
    (l : List γ) (a : α) : Along R (l.foldlM f a) := by
  induction l generalizing a with
  | nil => exact h.along_pure _
  | cons c l ih =>
    rw [List.foldlM_cons]
    exact h.along_bind (hf a c) ih

/-- A part that is needed goes along. -/
theorem along_need (h : Bears src R) (o : Option α) : Along R (need o : Assembling α) := by
  cases o with
  | none => exact Plain.along (.throw (e := .incomplete) trivial) h.toAbsorbs
  | some a => exact h.along_pure a

/-- A report goes along. -/
theorem along_report (h : Bears src R) (r : Report) : Along R (report r) :=
  Absorbs.along_modify fun p => h.leave p r

theorem along_get (h : Bears src R) : Along R (get : Assembling Progress) where
  ok := by
    intro p a q hrun
    cases hrun
    exact h.refl p
  error := by
    intro p e q hrun
    cases hrun

/-- A placeholder goes along. -/
theorem along_leave (h : Bears src R) (n : Node) (reason : String) (construct : Option String)
    (before : String) : Along R (Assembly.leave src n reason construct before) :=
  h.along_bind (h.along_report _) fun _ => h.along_map h.along_get

/-! ### Scripts -/

/-- The group of a construct. What holds along the building of its entries is not undone by leaving
a placeholder instead. -/
theorem along_groupFor (h : Bears src S) (hRS : ∀ {p q r}, R p q → S q r → R p r)
    {build : Assembling (List ScriptNode)} (hbuild : Along R build) (n : Node) (before : String) :
    Along R (groupFor src n before build) := by
  have entries : Along R (orElse build fun r => do
      return [.placeholder (← Assembly.leave src n r.message r.construct before)]) :=
    hbuild.orElse (fun r => h.along_map (h.along_leave n r.message r.construct before)) hRS
  exact entries.bind (fun _ => h.along_pure _) hRS

/-- A local statement goes along. -/
theorem along_localNodes (h : Bears src R) (l : LocalDeclaration) :
    Along R (localNodes src model indent l) := by
  by_cases hkind : l.kind = .unsupported
  · rw [localNodes_of_unsupported hkind]
    exact h.along_map (h.along_leave _ _ _ _)
  · exact (plain_localNodes l hkind).along h.toAbsorbs

/-! ### Markup -/

/-- So does markup, or a placeholder for it. -/
theorem along_orPlaceholder (h : Bears src R) {build : Assembling (List TemplateNode)}
    (hbuild : Along R build) (anchor : Option Node) : Along R (orPlaceholder src anchor build) := by
  refine hbuild.orElse (fun r => ?_) h.trans
  cases anchor with
  | some n => exact h.along_map (h.along_leave n r.message r.construct "")
  | none =>
    refine ⟨?_, ?_⟩ <;> intro p a q hrun <;> cases hrun
    exact h.refl p

/-- So does an attribute, or a placeholder for it. -/
theorem along_addAttributes (h : Bears src R) {build : Assembling (List TemplateAttribute)}
    (hbuild : Along R build) (n : Node) (done : Attributes) :
    Along R (addAttributes src n build done) :=
  (h.along_map hbuild).orElse (fun r => h.along_map (h.along_leave n r.message r.construct ""))
    h.trans

/-- All attributes of an element go along. -/
theorem along_elementAttributes (h : Bears src R) (head : ElementHead) :
    Along R (elementAttributes src model head) := by
  refine h.along_bind (h.along_foldlM (fun done item => ?_) _ _) fun done => ?_
  · exact h.along_addAttributes ((plain_itemAttributes _ _ _ _).along h.toAbsorbs) _ _
  · exact h.along_map (h.along_mapM (fun e => h.along_map (h.along_leave _ _ _ _)) _)

/-- So do those of a component. -/
theorem along_instanceAttributes (h : Bears src R) (head : InstanceHead) :
    Along R (instanceAttributes src model head) := by
  refine h.along_foldlM (fun done a => ?_) _ _
  exact h.along_addAttributes (h.along_map ((plain_instanceAttribute a).along h.toAbsorbs)) _ _

/-- A list goes along if its content does. -/
theorem along_listMarkup (h : Bears src R) {body : Assembling (List TemplateNode)}
    (hbody : Along R body) (head : ListHead) : Along R (listMarkup src model head body) := by
  refine h.along_bind ((plain_listKey head).along h.toAbsorbs) fun keyed => ?_
  refine h.along_bind ((plain_listConstants head).along h.toAbsorbs) fun constants => ?_
  refine h.along_bind hbody fun content => ?_
  exact h.along_map ((plain_expressionText? head.iterable).along h.toAbsorbs)

mutual

/-- Every render tree goes along. -/
theorem along_nodeMarkup (h : Bears src R) (n : RenderNode) :
    Along R (nodeMarkup src model n) := by
  cases n with
  | fragment children =>
    rw [nodeMarkup]
    exact h.along_nodesMarkup children
  | text value =>
    rw [nodeMarkup]
    exact h.along_pure _
  | unsupported n reason construct =>
    rw [nodeMarkup]
    exact h.along_map (h.along_leave n reason construct "")
  | expression e =>
    rw [nodeMarkup]
    exact h.along_orPlaceholder ((plain_valueMarkup e).along h.toAbsorbs) _
  | rawHtml e =>
    rw [nodeMarkup]
    exact h.along_orPlaceholder (h.along_map ((plain_expressionText e).along h.toAbsorbs)) _
  | element head children =>
    rw [nodeMarkup]
    refine h.along_orPlaceholder (h.along_bind (h.along_elementAttributes head) fun a => ?_) _
    exact h.along_map (h.along_nodesMarkup children)
  | component head slots =>
    rw [nodeMarkup]
    -- The component is noted first, and stays noted if the instance is refused.
    refine h.along_orPlaceholder (h.along_bind (Absorbs.along_modify fun p => ?_) fun _ => ?_) _
    · exact h.useTags p _
    · refine h.along_bind (h.along_instanceAttributes head) fun a => ?_
      exact h.along_map (h.along_slotsMarkup slots)
  | conditional condition consequent alternate =>
    rw [nodeMarkup]
    refine h.along_orPlaceholder ?_ _
    refine h.along_bind ((plain_expressionText? condition).along h.toAbsorbs) fun shown => ?_
    refine h.along_bind (h.along_nodeMarkup consequent) fun content => ?_
    exact h.along_map (h.along_alternateMarkup alternate)
  | list head body =>
    rw [nodeMarkup]
    exact h.along_orPlaceholder (h.along_listMarkup (h.along_nodeMarkup body) head) _
  | slot name callee arguments isOptional =>
    rw [nodeMarkup]
    exact h.along_orPlaceholder ((plain_slotMarkup _ _ _).along h.toAbsorbs) _

theorem along_nodesMarkup (h : Bears src R) (ns : List RenderNode) :
    Along R (nodesMarkup src model ns) := by
  cases ns with
  | nil =>
    rw [nodesMarkup]
    exact h.along_pure _
  | cons n rest =>
    rw [nodesMarkup]
    refine h.along_bind (h.along_nodeMarkup n) fun first => ?_
    exact h.along_map (h.along_nodesMarkup rest)

theorem along_alternateMarkup (h : Bears src R) (alternate : Option RenderNode) :
    Along R (alternateMarkup src model alternate) := by
  cases alternate with
  | none =>
    rw [alternateMarkup]
    exact h.along_pure _
  | some n =>
    cases n with
    | conditional condition consequent alternate =>
      rw [alternateMarkup]
      refine h.along_bind ((plain_expressionText? condition).along h.toAbsorbs) fun shown => ?_
      refine h.along_bind (h.along_nodeMarkup consequent) fun content => ?_
      exact h.along_map (h.along_alternateMarkup alternate)
    | _ =>
      rw [alternateMarkup]
      · exact h.along_map (h.along_nodeMarkup _)
      all_goals simp

theorem along_slotsMarkup (h : Bears src R) (slots : List SlotContent) :
    Along R (slotsMarkup src model slots) := by
  cases slots with
  | nil =>
    rw [slotsMarkup]
    exact h.along_pure _
  | cons slot rest =>
    cases slot with
    | mk name parameters body =>
      rw [slotsMarkup]
      refine h.along_bind (h.along_nodeMarkup body) fun content => ?_
      exact h.along_map (h.along_slotsMarkup rest)

end

theorem along_optionalMarkup (h : Bears src R) (n : Option RenderNode) :
    Along R (optionalMarkup src model n) := by
  cases n with
  | none => exact h.along_pure _
  | some n => exact h.along_nodeMarkup n

theorem along_snippetMarkup (h : Bears src R) (s : Render.Snippet) :
    Along R (snippetMarkup src model s) :=
  h.along_map (h.along_nodeMarkup s.body)

/-! ### Statements around a component -/

/-- An import goes along. -/
theorem along_importText? (h : Bears src R) (contextKeys : List String) (item : ModuleItem) :
    Along R (importText? src contextKeys item) := by
  unfold importText?
  dsimp only
  split
  · exact h.along_map (h.along_report _)
  · refine h.along_bind h.along_get fun p => ?_
    split
    · exact h.along_pure _
    · refine h.along_bind (h.along_need _) fun quote => ?_
      split
      · exact h.along_pure _
      · exact h.along_map (h.along_report _)

/-- So does a statement around the component. -/
theorem along_addItem (h : Bears src R) (contextKeys : List String) (parts : ModuleParts)
    (item : ModuleItem) : Along R (addItem src model contextKeys parts item) := by
  have statement : Along R (statementGroup src model item) :=
    h.along_groupFor (R := R) h.trans
      (h.along_map ((plain_convertedText true item.node).along h.toAbsorbs)) item.node ""
  unfold addItem
  cases item.kind with
  | importing => exact h.along_map (h.along_importText? contextKeys item)
  | _ => exact h.along_map statement

/-- So do all of them. -/
theorem along_moduleParts (h : Bears src R) : Along R (moduleParts src model) :=
  h.along_foldlM (h.along_addItem _) _ _

/-! ### Whole components -/

/-- So do all declarations. -/
theorem along_declarationGroups (h : Bears src R) :
    Along R (declarationGroups src model indent) := by
  have group {build : Assembling (List ScriptNode)} (hbuild : Along R build) (n : Node)
      (before : String) : Along R (groupFor src n before build) :=
    h.along_groupFor (R := R) h.trans hbuild n before
  have plain {build : Assembling (List ScriptNode)} (hbuild : Plain src build) (n : Node)
      (before : String) : Along R (groupFor src n before build) :=
    group (hbuild.along h.toAbsorbs) n before
  refine h.along_bind (h.along_mapM (fun b => plain (plain_stateNodes b) _ _) _) fun _ => ?_
  refine h.along_bind (h.along_mapM (fun d => plain (plain_derivedNodes d) _ _) _) fun _ => ?_
  refine h.along_bind (h.along_mapM (fun e => plain (plain_effectNodes e) _ _) _) fun _ => ?_
  refine h.along_bind (h.along_mapM (fun u => plain (plain_consumerNodes u) _ _) _) fun _ => ?_
  refine h.along_bind (h.along_mapM (fun r => plain (plain_refNodes r) _ _) _) fun _ => ?_
  exact h.along_map (h.along_mapM (fun l => group (h.along_localNodes l) _ _) _)

/-- So do all contexts that are provided. -/
theorem along_provisionNodes (h : Bears src R) : Along R (provisionNodes src model) := by
  refine h.along_map (h.along_mapM (fun u => ?_) _)
  refine h.along_bind (Absorbs.along_modify fun p => h.useImports p _) fun _ => ?_
  exact h.along_groupFor (R := R) h.trans ((plain_providerNodes u).along h.toAbsorbs) _ _

/-- The relation holds along the whole assembly, however it ends. -/
theorem along_assembleComponent (h : Bears src R) :
    Along R (assembleComponent src model indent) := by
  refine h.along_bind (plain_propsDeclaration.along h.toAbsorbs) fun _ => ?_
  refine h.along_bind h.along_declarationGroups fun _ => ?_
  refine h.along_bind h.along_provisionNodes fun _ => ?_
  refine h.along_bind (h.along_mapM h.along_snippetMarkup _) fun _ => ?_
  refine h.along_bind (h.along_optionalMarkup _) fun _ => ?_
  refine h.along_bind h.along_moduleParts fun _ => ?_
  exact h.along_map h.along_get

end Bears

end Sveltify.Assembly
