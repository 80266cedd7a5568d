import Sveltify.Proofs.Render.Builders

namespace Sveltify.Render

open Text Component Analysis Node

/-!
# What building can do

While render trees are built, things that are found are written down. Each step does this in one of
six ways. This is said once here, so that a fact about building whole components follows from six
small steps.

* `Note`: the six ways; `Notes`: any number of them;
* `notes_buildExpression`, `notes_buildTrees`: building makes notes only;
* `reports_subset_of_notes`: reports are added, and none is taken back.
-/

/-- One thing that is written down. -/
inductive Note : Progress → Progress → Prop
  | number (p : Progress) : Note p { p with counter := p.counter + 1 }
  | target (p : Progress) (ref : String) (id : Nat) :
      Note p { p with refTargets := p.refTargets.insertNew ref id }
  | provider (p : Progress) (use : ContextUse) :
      Note p { p with providers := p.providers ++ [use] }
  | slot (p : Progress) (name : String) (arguments : List String) :
      Note p { p with slots := p.slots.insertNew name arguments }
  | style (p : Progress) (css : String) : Note p { p with styles := p.styles ++ [css] }
  | report (p : Progress) (r : Report) : Note p { p with reports := p.reports ++ [r] }

/-- Any number of things that are written down. -/
abbrev Notes : Progress → Progress → Prop := Relation.ReflTransGen Note

/-- A report stays, whatever is written down after it. -/
theorem reports_subset_of_notes {p q : Progress} (h : Notes p q) : p.reports ⊆ q.reports := by
  induction h with
  | refl => exact List.Subset.refl _
  | tail _ hnote ih =>
    cases hnote with
    | report r => exact List.Subset.trans ih (List.subset_append_left _ _)
    | number | target | provider | slot | style => exact ih

variable {src : Source} {names : Names}

/-! ### Single steps -/

theorem notes_freshId : Leads Notes freshId := by
  intro p id q hrun
  cases hrun
  exact .single (.number p)

theorem notes_reportAt (severity : Severity) (code message : String) (n : Node)
    (construct : String) : Leads Notes (reportAt src severity code message n construct) := by
  intro p u q hrun
  cases hrun
  exact .single (.report p _)

/-- Side steps only add notes. -/
theorem notes_sideSteps : SideSteps src (fun x => Leads Notes x) where
  pure := .pure
  throw := .throw
  bind := .bind
  slot name arguments := .modify fun p => .single (.slot p name arguments)
  fault message attr construct := notes_reportAt _ _ message attr construct

/-- An element adds only notes. -/
theorem notes_buildElement (n : Node) (tag : String) (children : List RenderNode) :
    Leads Notes (buildElement src names n tag children) := by
  refine .bind notes_freshId fun id => .bind (notes_sideSteps.ofAddAttributes names _ _) fun parts => ?_
  dsimp only
  split
  · exact .bind (.modify fun p => .single (.target p _ _)) fun _ => .pure _
  · exact .pure _

/-- So does a provider. -/
theorem notes_buildProvider (nested : Bool) (n : Node) (key : String)
    (children : List RenderNode) : Leads Notes (buildProvider src nested n key children) := by
  have provided (use : ContextUse) : Leads Notes (do
      modify fun p => { p with providers := p.providers ++ [use] }
      return .fragment children : Build RenderNode) :=
    .bind (.modify fun p => .single (.provider p _)) fun _ => .pure _
  refine .bind (.lift _) fun value => ?_
  dsimp only
  split
  · exact .bind (notes_reportAt _ _ _ _ _) fun _ => provided _
  · exact provided _

/-- So does a style. -/
theorem notes_buildStyle (n : Node) : Leads Notes (buildStyle src n) := by
  refine .bind (.lift _) fun isGlobal => .bind (.lift _) fun parts => ?_
  split
  · exact .pure _
  dsimp only
  split
  · exact .bind (.modify fun p => .single (.style p _)) fun _ => .pure _
  · exact .pure _

/-- So does an inserted value. -/
theorem notes_buildValue (n : Node) : Leads Notes (buildValue src names n) := by
  refine .bind (notes_sideSteps.ofSlotUse names n) fun slot => ?_
  split
  · exact .pure _
  · split <;> exact .pure _

/-! ### Builders

What is shown of each builder, given the same of the builders that it calls. -/

section Builders

variable (src names)

abbrev NotesExpression (nested : Bool) (n : Node) : Prop :=
  Leads Notes (buildExpression src names nested n)

abbrev NotesBare (nested : Bool) (n : Node) : Prop := Leads Notes (buildBare src names nested n)

abbrev NotesElement (nested : Bool) (n : Node) : Prop :=
  Leads Notes (buildMarkup src names nested n)

abbrev NotesContent (nested : Bool) (cs : List Node) : Prop :=
  Leads Notes (buildChildren src names nested cs)

abbrev NotesAttributes (attributes : List Node) : Prop :=
  Leads Notes (buildInstanceAttributes src names attributes)

abbrev NotesPassed (value : Node) : Prop :=
  ∀ name, Leads Notes (passedMarkup src names name value)

end Builders

/-- A part that may be missing. -/
theorem notes_optional {nested : Bool} {part : Option Node}
    (h : ∀ c, part = some c → NotesExpression src names nested c) :
    Leads Notes (buildOptional src names nested part) := by
  cases part with
  | none => exact .pure _
  | some c => exact h c rfl

/-- A slot that may be missing. -/
theorem notes_passedOptional {value : Option Node}
    (h : ∀ e, value = some e → NotesPassed src names e) (name : String) :
    Leads Notes (passedOptional src names name value) := by
  cases value with
  | none => exact .pure _
  | some e => exact h e rfl name

/-- A conjunction adds the notes of its right-hand side. -/
theorem notes_conjunction {nested : Bool} {n : Node} (hempty : isEmptyLiteral src n = false)
    (hand : isConjunction n = true)
    (right : ∀ c, n.field? "right" = some c → NotesExpression src names true c) :
    NotesBare src names nested n := by
  unfold NotesBare
  rw [buildBare_conjunction hempty hand]
  exact .bind (notes_optional right) fun _ => .pure _

/-- A ternary expression adds those of both branches. -/
theorem notes_ternary {nested : Bool} {n : Node} (hempty : isEmptyLiteral src n = false)
    (hkind : n.kind = "ternary_expression")
    (consequence : ∀ c, n.field? "consequence" = some c → NotesExpression src names true c)
    (alternative : ∀ c, n.field? "alternative" = some c → NotesExpression src names true c) :
    NotesBare src names nested n := by
  unfold NotesBare
  rw [buildBare_ternary hempty hkind]
  refine .bind (notes_sideSteps.ofAnyRendered names _) fun rendered => ?_
  split
  · exact .bind (notes_optional consequence) fun _ =>
      .bind (notes_optional alternative) fun _ => .pure _
  · exact .pure _

/-- A list adds those of its items. -/
theorem notes_mapped {n : Node}
    (items : ∀ iterable callback declarations returned,
      mappedList? src n = some (iterable, callback) →
      callbackBody callback = some (declarations, some returned) →
      NotesExpression src names true returned) :
    Leads Notes (buildMapped src names n (mappedList? src n)) := by
  cases mappedCase src names n with
  | leaf hbuild =>
    rw [hbuild]
    exact .pure _
  | items hmapped hbody hbuild =>
    rw [hbuild]
    exact .bind (.lift _) fun key => .bind (items _ _ _ _ hmapped hbody) fun _ => .pure _

/-- Any other expression is a list or a value. -/
theorem notes_other {nested : Bool} {n : Node} (hempty : isEmptyLiteral src n = false)
    (hjsx : n.isJsx = false) (hand : isConjunction n = false)
    (hternary : n.kind ≠ "ternary_expression")
    (items : ∀ iterable callback declarations returned,
      mappedList? src n = some (iterable, callback) →
      callbackBody callback = some (declarations, some returned) →
      NotesExpression src names true returned) :
    NotesBare src names nested n := by
  unfold NotesBare
  rw [buildBare_other src names hempty hjsx hand hternary]
  refine .bind (.lift _) fun isList => ?_
  split
  · exact notes_mapped items
  · exact notes_buildValue n

/-- An element adds those of its content and its slots. -/
theorem notes_tag {nested : Bool} {n : Node} (content : NotesContent src names nested n.children)
    (attributes : NotesAttributes src names (attributesOf n))
    (passed : ∀ e, onlyChildExpression? src n = some e → NotesPassed src names e) :
    NotesElement src names nested n := by
  have wrapped {x : Build RenderNode} (h : Leads Notes x) : Leads Notes (some <$> x) := by
    rw [map_eq_pure_bind]
    exact .bind h fun _ => .pure _
  unfold NotesElement
  rw [buildMarkup_eq]
  refine .bind ?_ fun children => ?_
  · unfold buildContent
    split
    · exact .pure _
    · exact content
  · unfold buildTag
    split
    · exact .pure _
    · exact wrapped (notes_buildProvider nested n _ children)
    · exact notes_buildStyle n
    · exact wrapped (notes_buildElement n _ children)
    · refine wrapped (.bind notes_freshId fun id => .bind attributes fun made => ?_)
      exact .bind (notes_passedOptional passed _) fun _ => .pure _

/-- The first child comes before the others. -/
theorem notes_nextChild {nested : Bool} {c : Node} {cs : List Node}
    (expression : ∀ e, innerExpression? c = some e → NotesExpression src names true e)
    (element : c.isJsx = true → NotesElement src names nested c)
    (rest : NotesContent src names nested cs) : NotesContent src names nested (c :: cs) := by
  unfold NotesContent
  rw [buildChildren_cons]
  refine .bind ?_ fun built => .bind rest fun _ => .pure _
  cases childCase src names nested c with
  | leaf hbuild =>
    rw [hbuild]
    exact .pure _
  | expression hbuild _ _ hinner =>
    rw [hbuild]
    exact expression _ hinner
  | element hbuild _ _ hjsx =>
    rw [hbuild]
    exact element hjsx

/-- The first attribute comes before the others. -/
theorem notes_nextAttribute {a : Node} {rest : List Node}
    (passed : ∀ value, valueExpression? a = some value → NotesPassed src names value)
    (others : NotesAttributes src names rest) : NotesAttributes src names (a :: rest) := by
  unfold NotesAttributes
  rw [buildInstanceAttributes_cons]
  split
  · exact .bind others fun _ => .pure _
  · refine .bind (.lift _) fun name => ?_
    split
    · exact others
    · exact .bind (notes_passedOptional passed name) fun _ => .bind others fun _ => .pure _

/-- A function that is passed adds those of its body. -/
theorem notes_handed {value v : Node} (hbare : value.bare? = some v)
    (body : ∀ parameters b, passedParts? v = some (parameters, b) →
      NotesExpression src names true b) : NotesPassed src names value := by
  intro name
  rw [passedMarkup_of_bare src names hbare]
  cases hparts : passedParts? v with
  | none => exact .pure _
  | some parts => exact .bind (body parts.1 parts.2 hparts) fun _ => .pure _

/-- No builder takes a note back. -/
theorem notes_cases : BuildCases src (NotesExpression src names) (NotesBare src names)
    (NotesElement src names) (NotesContent src names) (NotesAttributes src names)
    (NotesPassed src names) where
  failed h := by
    unfold NotesExpression
    rw [buildExpression_of_none h]
    exact .throw _
  bare hbare h := by
    unfold NotesExpression
    rw [buildExpression_of_bare hbare]
    exact h
  empty h := by
    unfold NotesBare
    rw [buildBare_empty src names h]
    exact .pure _
  markup hempty hjsx h := by
    unfold NotesBare
    rw [buildBare_markup src names hempty hjsx]
    exact h
  conjunction := notes_conjunction
  ternary := notes_ternary
  other := notes_other
  tag := notes_tag
  noContent {nested} := by
    unfold NotesContent
    rw [buildChildren.eq_def]
    exact .pure _
  nextChild := notes_nextChild
  noAttributes := by
    unfold NotesAttributes
    rw [buildInstanceAttributes]
    exact .pure _
  nextAttribute := notes_nextAttribute
  notPassed h name := by
    rw [passedMarkup_of_none src names h]
    exact .throw _
  handed := notes_handed

/-- Building the render tree of an expression makes notes only. -/
theorem notes_buildExpression (nested : Bool) (n : Node) : NotesExpression src names nested n :=
  notes_cases.ofExpression nested n

/-! ### Components -/

theorem notes_buildOptional (nested : Bool) (value : Option Node) :
    Leads Notes (buildOptional src names nested value) :=
  notes_optional fun c _ => notes_buildExpression nested c

theorem notes_buildChain (c : ReturnChain) : Leads Notes (buildChain src names c) := by
  refine .bind (.mapM (fun branch => ?_) c.branches) fun branches => ?_
  · exact .bind (notes_buildOptional _ _) fun _ => .pure _
  · dsimp only
    split
    · exact .bind (notes_buildOptional _ _) fun _ => .pure _
    · exact .bind (.pure _) fun _ => .pure _

/-- **Run.** Building the render trees of a component makes notes only. -/
theorem notes_buildTrees (read : ComponentBody) : Leads Notes (buildTrees src names read) := by
  refine .bind (.mapM (fun s => ?_) _) fun snippets => ?_
  · exact .bind (notes_buildExpression _ _) fun _ => .pure _
  · exact .bind (.mapM notes_buildChain _) fun _ =>
      .bind (notes_buildOptional _ _) fun _ => .pure _

end Sveltify.Render
