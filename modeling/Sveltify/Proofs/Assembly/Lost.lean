import Sveltify.Proofs.Assembly.Ledger
import Sveltify.Proofs.Assembly.Placeholders

namespace Sveltify.Assembly

open Component Expression Svelte
open Render (ElementHead InstanceHead ListHead RenderNode SlotContent)

/-!
# Which placeholders are lost

A block is refused as a whole: a list when what it runs over is refused, and the branches of a
condition when one of the conditions is. The parts that have been made by then are thrown away with
the placeholders in them, but what has been reported about them stays reported.

* `placeholders`: all placeholders in a Svelte component;
* `nodeLost`: what is thrown away while the markup of a piece of a render tree is made;
* `tally_nodeMarkup`: all other placeholders are in the markup;
* `tally_assembleComponent`: so they are in the whole component.
-/

variable {src : Source} {model : Model} {indent : String}

/-! ### Placeholders in a component -/

/-- The placeholder that an entry of a script is. -/
def entryPlaceholder? : ScriptNode → Option Placeholder
  | .placeholder p => some p
  | _ => none

/-- The placeholders in a script. -/
def scriptPlaceholders (entries : List ScriptNode) : List Placeholder :=
  entries.filterMap entryPlaceholder?

/-- The placeholders in a group of entries. -/
def groupPlaceholders (g : Group) : List Placeholder := scriptPlaceholders g.nodes

@[simp] theorem scriptPlaceholders_append (as bs : List ScriptNode) :
    scriptPlaceholders (as ++ bs) = scriptPlaceholders as ++ scriptPlaceholders bs :=
  List.filterMap_append

theorem scriptPlaceholders_flatMap (groups : List Group) :
    scriptPlaceholders (groups.flatMap (·.nodes)) = groups.flatMap groupPlaceholders := by
  induction groups with
  | nil => rfl
  | cons g groups ih =>
    rw [List.flatMap_cons, List.flatMap_cons, scriptPlaceholders_append, ih]
    rfl

/-- What is left over in a script stands in its placeholders. -/
theorem map_leftoverIn_scriptPlaceholders (entries : List ScriptNode) :
    (scriptPlaceholders entries).map leftoverIn = scriptLeftovers entries := by
  unfold scriptPlaceholders scriptLeftovers
  rw [List.map_filterMap]
  congr 1
  funext entry
  cases entry <;> rfl

mutual

/-- The placeholders in a piece of markup, at any depth. -/
def templatePlaceholders : TemplateNode → List Placeholder
  | .element _ _ children _ => markupPlaceholders children
  | .component _ _ children => markupPlaceholders children
  | .conditional branches none => branchesPlaceholders branches
  | .conditional branches (some otherwise) =>
    branchesPlaceholders branches ++ markupPlaceholders otherwise
  | .each _ _ _ _ children => markupPlaceholders children
  | .snippet _ _ children => markupPlaceholders children
  | .placeholder p => [p]
  | _ => []

/-- The placeholders in markup, at any depth. -/
def markupPlaceholders : List TemplateNode → List Placeholder
  | [] => []
  | n :: rest => templatePlaceholders n ++ markupPlaceholders rest

/-- The placeholders in the branches of a condition, at any depth. -/
def branchesPlaceholders : List IfBranch → List Placeholder
  | [] => []
  | .mk _ children :: rest => markupPlaceholders children ++ branchesPlaceholders rest

end

mutual

/-- What is left over in a node stands in its placeholders. -/
theorem map_leftoverIn_templatePlaceholders (n : TemplateNode) :
    (templatePlaceholders n).map leftoverIn = templateLeftovers n := by
  cases n with
  | element tag attributes children isVoid =>
    rw [templatePlaceholders, templateLeftovers, map_leftoverIn_markupPlaceholders]
  | component name attributes children =>
    rw [templatePlaceholders, templateLeftovers, map_leftoverIn_markupPlaceholders]
  | conditional branches otherwise =>
    cases otherwise with
    | none => rw [templatePlaceholders, templateLeftovers, map_leftoverIn_branchesPlaceholders]
    | some otherwise =>
      rw [templatePlaceholders, templateLeftovers, List.map_append,
        map_leftoverIn_branchesPlaceholders, map_leftoverIn_markupPlaceholders]
  | each e item index key children =>
    rw [templatePlaceholders, templateLeftovers, map_leftoverIn_markupPlaceholders]
  | snippet name parameters children =>
    rw [templatePlaceholders, templateLeftovers, map_leftoverIn_markupPlaceholders]
  | placeholder p => rfl
  | _ => simp [templatePlaceholders, templateLeftovers]

/-- So it is for markup. -/
theorem map_leftoverIn_markupPlaceholders (ns : List TemplateNode) :
    (markupPlaceholders ns).map leftoverIn = markupLeftovers ns := by
  cases ns with
  | nil => rfl
  | cons n rest =>
    rw [markupPlaceholders, markupLeftovers, List.map_append, map_leftoverIn_templatePlaceholders,
      map_leftoverIn_markupPlaceholders]

/-- So it is for branches. -/
theorem map_leftoverIn_branchesPlaceholders (branches : List IfBranch) :
    (branchesPlaceholders branches).map leftoverIn = branchesLeftovers branches := by
  cases branches with
  | nil => rfl
  | cons branch rest =>
    cases branch with
    | mk condition children =>
      rw [branchesPlaceholders, branchesLeftovers, List.map_append,
        map_leftoverIn_markupPlaceholders, map_leftoverIn_branchesPlaceholders]

end

/-- The placeholders of markup, node by node. -/
theorem markupPlaceholders_eq (ns : List TemplateNode) :
    markupPlaceholders ns = ns.flatMap templatePlaceholders := by
  induction ns with
  | nil => rfl
  | cons n ns ih => rw [markupPlaceholders, ih, List.flatMap_cons]

theorem markupPlaceholders_append (as bs : List TemplateNode) :
    markupPlaceholders (as ++ bs) = markupPlaceholders as ++ markupPlaceholders bs := by
  rw [markupPlaceholders_eq, List.flatMap_append, ← markupPlaceholders_eq, ← markupPlaceholders_eq]

theorem markupPlaceholders_singleton (n : TemplateNode) :
    markupPlaceholders [n] = templatePlaceholders n := by
  rw [markupPlaceholders, markupPlaceholders, List.append_nil]

/-- Markup that keeps nothing has no placeholders in it. -/
theorem markupPlaceholders_eq_nil {ns : List TemplateNode} (h : markupLeftovers ns = []) :
    markupPlaceholders ns = [] := by
  rw [← map_leftoverIn_markupPlaceholders] at h
  exact List.map_eq_nil_iff.1 h

/-- All placeholders in a Svelte component. -/
def placeholders (c : SvelteComponent) : List Placeholder :=
  scriptPlaceholders (c.moduleScript ++ c.script) ++ markupPlaceholders c.template

/-! ### Scripts lose nothing -/

/-- Building the entries of a piece throws nothing away, and if it is refused then nothing has been
left behind. -/
structure Piece.Lossless (p : Piece) : Prop where
  tally : Tally [] scriptPlaceholders [] p.build
  spends : Spends [] [] p.build

/-- A plain piece without placeholders of its own. -/
theorem Piece.lossless_of_plain {p : Piece} (h : Plain src p.build) (hown : p.own = []) :
    p.Lossless where
  tally := by
    refine h.tally_of_yields fun q entries q' hrun => ?_
    have kept := (p.ends.ok hrun).2
    rw [hown, ← map_leftoverIn_scriptPlaceholders] at kept
    exact List.map_eq_nil_iff.1 kept
  spends := h.spends

/-- Local statements lose nothing. -/
theorem lossless_localPiece (l : LocalDeclaration) : (localPiece src model indent l).Lossless := by
  by_cases h : l.kind = .unsupported
  · -- The statement is left behind at once, which is never refused.
    have build : (localPiece src model indent l).build = localNodes src model indent l := rfl
    rw [localNodes_of_unsupported h] at build
    constructor
    · rw [build]
      exact (Tally.leave _ _ _ _).map fun ph => .refl _
    · rw [build]
      exact .of_never ((ends_leave _ _ _ _).map (R := fun _ => True) fun _ _ => trivial)
  · refine Piece.lossless_of_plain (plain_localNodes l h) ?_
    show localLeftovers src l = []
    unfold localLeftovers
    split
    · contradiction
    · rfl

/-- A group holds each placeholder that was made for it. -/
theorem tally_groupFor {p : Piece} (h : p.Lossless) :
    Tally [] groupPlaceholders [] (groupFor src p.node p.before p.build) := by
  have entries : Tally [] scriptPlaceholders [] (orElse p.build fun r => do
      return [.placeholder (← leave src p.node r.message r.construct p.before)]) :=
    Tally.orElse_leave_nil p.ends h.tally h.spends fun ph => .refl _
  exact entries.map fun es => .refl _

/-- So do groups in a row. -/
theorem tally_groups {γ : Type} (src : Source) {piece : γ → Piece} (h : ∀ c, (piece c).Lossless)
    (l : List γ) :
    Tally [] (fun groups => groups.flatMap groupPlaceholders) []
      (l.mapM fun c => groupFor src (piece c).node (piece c).before (piece c).build) :=
  Tally.mapM_nil fun c _ => tally_groupFor (h c)

/-- All declarations together lose nothing. -/
theorem tally_declarationGroups :
    Tally [] (fun groups => groups.flatMap groupPlaceholders) []
      (declarationGroups src model indent) := by
  have state (b : StateBinding) : (statePiece src model indent b).Lossless :=
    Piece.lossless_of_plain (plain_stateNodes b) rfl
  have derived (d : DerivedBinding) : (derivedPiece src model d).Lossless :=
    Piece.lossless_of_plain (plain_derivedNodes d) rfl
  have effect (e : EffectBinding) : (effectPiece src model e).Lossless :=
    Piece.lossless_of_plain (plain_effectNodes e) rfl
  have consumer (u : ContextUse) : (consumerPiece src model u).Lossless :=
    Piece.lossless_of_plain (plain_consumerNodes u) rfl
  have ref (r : RefBinding) : (refPiece src model r).Lossless :=
    Piece.lossless_of_plain (plain_refNodes r) rfl
  have statement (l : LocalDeclaration) : (localPiece src model indent l).Lossless :=
    lossless_localPiece l
  refine (tally_groups src state _).thereafter fun states => ?_
  refine ((tally_groups src derived _).frame _).thereafter fun deriveds => ?_
  refine ((tally_groups src effect _).frame _).thereafter fun effects => ?_
  refine ((tally_groups src consumer _).frame _).thereafter fun consumers => ?_
  refine ((tally_groups src ref _).frame _).thereafter fun refs => ?_
  refine ((tally_groups src statement _).frame _).map fun statements => ?_
  simp only [List.flatMap_append]
  exact .refl _

/-- Provided contexts lose nothing. -/
theorem tally_provisionNodes : Tally [] scriptPlaceholders [] (provisionNodes src model) := by
  have imports : Plain src (useImports ["setContext"]) := .useImports _
  have provider (u : ContextUse) : (providerPiece src model u).Lossless :=
    Piece.lossless_of_plain (plain_providerNodes u) rfl
  have each (u : ContextUse) : Tally [] groupPlaceholders [] (do
      useImports ["setContext"]
      groupFor src u.node "" (providerNodes src model u)) :=
    (imports.tally []).thereafter fun _ => tally_groupFor (provider u)
  refine (Tally.mapM_nil fun u _ => each u).map fun groups => ?_
  rw [scriptPlaceholders_flatMap]

/-! ### Statements around a component lose nothing -/

/-- An import makes no placeholder. -/
theorem tally_importText? (before : List Placeholder) (contextKeys : List String)
    (item : ModuleItem) :
    Tally before (fun _ => before) [] (importText? src contextKeys item) := by
  -- Reports about imports are no TODOs.
  have reported {r : Report} (hr : isTodo r = false) (text : Option String) :
      Tally before (fun _ => before) [] (do report r; return text) := by
    have plain : Plain src (report r) := .report hr
    exact (plain.tally before).thereafter fun _ => .pure (.refl _)
  unfold importText?
  dsimp only
  split
  · exact reported rfl none
  · refine Tally.get.thereafter fun p => ?_
    split
    · exact .pure (.refl _)
    · have needed (o : Option Char) : Plain src (need o : Assembling Char) := by
        rw [← bind_pure (need o : Assembling Char)]
        exact .need fun _ _ => .pure _ _
      refine ((needed _).tally before).thereafter fun quote => ?_
      split
      · exact .pure (.refl _)
      · exact reported rfl _

/-- The placeholders among the statements around a component. -/
def partsPlaceholders (parts : ModuleParts) : List Placeholder :=
  scriptPlaceholders parts.types ++ scriptPlaceholders parts.moduleScript
    ++ parts.declarations.flatMap groupPlaceholders

/-- Statements around the component lose nothing. -/
theorem lossless_itemPiece (item : ModuleItem) : (itemPiece src model item).Lossless := by
  have plain : Plain src (itemPiece src model item).build :=
    .bind (plain_convertedText _ item.node) fun _ _ => .pure _ _
  exact Piece.lossless_of_plain plain rfl

/-- One statement more. -/
theorem tally_addItem (contextKeys : List String) (parts : ModuleParts) (item : ModuleItem) :
    Tally (partsPlaceholders parts) partsPlaceholders []
      (addItem src model contextKeys parts item) := by
  have group : Tally [] groupPlaceholders [] (statementGroup src model item) :=
    tally_groupFor (lossless_itemPiece item)
  unfold addItem
  cases item.kind with
  | importing => exact (tally_importText? _ contextKeys item).map fun text => .refl _
  | typing | exported | declaration =>
    refine (group.frame (partsPlaceholders parts)).map fun g => ?_
    -- The entries are added to one of three lists; counting is blind to which.
    rw [List.perm_iff_count]
    intro ph
    simp only [partsPlaceholders, scriptPlaceholders_append, groupPlaceholders,
      List.flatMap_append, List.flatMap_singleton, List.count_append]
    omega

/-- All statements around the component lose nothing. -/
theorem tally_moduleParts : Tally [] partsPlaceholders [] (moduleParts src model) :=
  Tally.foldlM partsPlaceholders (fun parts item => tally_addItem _ parts item) model.moduleItems {}

/-! ### What blocks lose -/

section

variable (src : Source) (model : Model)

mutual

/-- What was written on the placeholders that are thrown away while the markup of a piece of a
render tree is made. -/
def nodeLost : RenderNode → List Leftover
  | .fragment children => nodesLost children
  | .element _ children => nodesLost children
  | .component _ slots => slotsLost slots
  | .conditional condition consequent alternate =>
    let discarded := (blockRefusal src model (.conditional condition consequent alternate)).isSome
    if (refusalOf (expressionText? src model condition)).isSome then []
    else nodeLost consequent ++
      ((if discarded then nodeLeftovers src model consequent else [])
        ++ alternateLost discarded alternate)
  | .list h body =>
    if (refusalOf (listKey src model h)).isSome then []
    else if (refusalOf (listConstants src model h)).isSome then []
    else nodeLost body ++
      if (refusalOf (expressionText? src model h.iterable)).isSome then nodeLeftovers src model body
      else []
  | .text _ | .unsupported _ _ _ | .expression _ | .rawHtml _ | .slot _ _ _ _ => []

/-- What several pieces lose. -/
def nodesLost : List RenderNode → List Leftover
  | [] => []
  | n :: rest => nodeLost n ++ nodesLost rest

/-- What the further branches of a condition lose, up to the first condition that is refused. If
the block is discarded in the end, then it loses what the branches keep too. -/
def alternateLost (discarded : Bool) : Option RenderNode → List Leftover
  | none => []
  | some (.conditional condition consequent alternate) =>
    if (refusalOf (expressionText? src model condition)).isSome then []
    else nodeLost consequent ++
      ((if discarded then nodeLeftovers src model consequent else [])
        ++ alternateLost discarded alternate)
  | some other => nodeLost other

/-- What the markup handed to a component instance loses. -/
def slotsLost : List SlotContent → List Leftover
  | [] => []
  | .mk _ _ body :: rest => nodeLost body ++ slotsLost rest

end

end

/-- A block loses what its branches lose, and more if it is refused. -/
theorem nodeLost_conditional (condition : Option Node) (consequent : RenderNode)
    (alternate : Option RenderNode) :
    nodeLost src model (.conditional condition consequent alternate) =
      alternateLost src model
        (blockRefusal src model (.conditional condition consequent alternate)).isSome
        (some (.conditional condition consequent alternate)) := by
  rw [nodeLost, alternateLost]

/-! ### Attributes lose nothing -/

/-- A refused attribute is a placeholder in front. -/
theorem tally_addAttributes {n : Node} {build : Assembling (List TemplateAttribute)}
    (h : Plain src build) (done : Attributes) :
    Tally (markupPlaceholders done.before) (fun a => markupPlaceholders a.before) []
      (addAttributes src n build done) := by
  have added : Plain src (do
      return { done with attributes := done.attributes ++ (← build) }) :=
    .bind h fun _ _ => .pure _ _
  have kept : Tally (markupPlaceholders done.before) (fun a => markupPlaceholders a.before) [] (do
      return { done with attributes := done.attributes ++ (← build) }) :=
    (h.tally _).map fun _ => .refl _
  refine Tally.orElse_leave_nil added.steady.endsAnyhow kept added.spends fun ph => ?_
  rw [markupPlaceholders_append, markupPlaceholders_singleton, templatePlaceholders]

/-- The attributes of an element lose nothing. -/
theorem tally_elementAttributes (h : ElementHead) :
    Tally [] (fun a => markupPlaceholders a.before) [] (elementAttributes src model h) := by
  have reference (e : Node) : Tally [] templatePlaceholders [] (do
      return TemplateNode.placeholder (← leave src e callbackRef (some "ref") "")) :=
    (Tally.leave e callbackRef (some "ref") "").map fun ph => .refl _
  have plain (item : Item) : Plain src (itemMarkup src model h item) := plain_itemAttributes _ _ _ _
  have items := Tally.foldlM (fun (a : Attributes) => markupPlaceholders a.before)
    (fun done (item : Item) => tally_addAttributes (n := item.node) (plain item) done)
    (itemsOf h) {}
  refine items.thereafter fun a => ?_
  have references := Tally.mapM_nil (l := h.refExpression.toList) fun e _ => reference e
  refine (references.frame _).map fun callback => ?_
  rw [markupPlaceholders_append, markupPlaceholders_eq callback]

/-- Nor do those of a component. -/
theorem tally_instanceAttributes (h : InstanceHead) :
    Tally [] (fun a => markupPlaceholders a.before) [] (instanceAttributes src model h) :=
  Tally.foldlM (fun (a : Attributes) => markupPlaceholders a.before)
    (fun done a => tally_addAttributes
      (.bind (plain_instanceAttribute a) fun _ _ => .pure _ _) done)
    h.props {}

/-! ### Markup -/

/-- Markup with a placeholder in its place if it is refused. -/
theorem tally_orPlaceholder {f : Option Refusal} {c : Bool} {Q : List TemplateNode → Prop}
    {lost spent : List Leftover} (n : Node) {build : Assembling (List TemplateNode)}
    (he : Ends f c Q build) (hbuild : Tally [] markupPlaceholders lost build)
    (hs : Spends [] spent build) :
    Tally [] markupPlaceholders (if f.isSome then spent else lost)
      (orPlaceholder src (some n) build) :=
  Tally.orElse_leave he hbuild hs fun _ => .refl _

/-- Plain markup with a placeholder in its place if it is refused. -/
theorem tally_orPlaceholder_of_plain (n : Node) {build : Assembling (List TemplateNode)}
    (h : Plain src build) (hbuild : YieldsPlainMarkup build) :
    Tally [] markupPlaceholders [] (orPlaceholder src (some n) build) := by
  have kept : Tally [] markupPlaceholders [] build :=
    h.tally_of_yields fun p ns q hrun => markupPlaceholders_eq_nil (hbuild hrun)
  exact Tally.orElse_leave_nil h.steady.endsAnyhow kept h.spends fun _ => .refl _

/-- Markup that is never refused needs no placeholder in its place. -/
theorem tally_orPlaceholder_of_never {c : Bool} {Q : List TemplateNode → Prop}
    {lost : List Leftover} (n : Node) {build : Assembling (List TemplateNode)}
    (he : Ends none c Q build) (hbuild : Tally [] markupPlaceholders lost build) :
    Tally [] markupPlaceholders lost (orPlaceholder src (some n) build) := by
  have never : Spends [] [] build := .of_never he
  exact tally_orPlaceholder n he hbuild never

section Content

variable {content : Assembling (List TemplateNode)} {c : Bool} {lost ws : List Leftover}

/-- An element loses what its content loses. -/
theorem tally_elementMarkup (h : ElementHead)
    (hcontent : Tally [] markupPlaceholders lost content) :
    Tally [] markupPlaceholders lost (elementMarkup src model h content) := by
  refine (tally_elementAttributes h).thereafter fun a => ?_
  refine (hcontent.frame _).map fun children => ?_
  rw [markupPlaceholders_append, markupPlaceholders_singleton, templatePlaceholders]

/-- So does a component. -/
theorem tally_instanceMarkup (h : InstanceHead)
    (hcontent : Tally [] markupPlaceholders lost content) :
    Tally [] markupPlaceholders lost (instanceMarkup src model h content) := by
  have tags : Tally [] (fun _ => []) [] (modify fun p =>
      { p with componentTags := p.componentTags ++ [instanceRoot h.name] } : Assembling PUnit) :=
    .modify fun _ => rfl
  refine tags.thereafter fun _ => ?_
  refine (tally_instanceAttributes h).thereafter fun a => ?_
  refine (hcontent.frame _).map fun children => ?_
  rw [markupPlaceholders_append, markupPlaceholders_singleton, templatePlaceholders]

/-- The constants of a list lose nothing. -/
theorem tally_listConstants (h : ListHead) :
    Tally [] markupPlaceholders [] (listConstants src model h) :=
  (plain_listConstants h).tally_of_yields fun _ _ _ hrun =>
    markupPlaceholders_eq_nil (yields_listConstants h hrun)

/-- A list loses what its items lose. -/
theorem tally_listMarkup (h : ListHead) (hcontent : Tally [] markupPlaceholders lost content) :
    Tally [] markupPlaceholders lost (listMarkup src model h content) := by
  refine ((plain_listKey h).tally []).thereafter fun key => ?_
  refine (tally_listConstants h).thereafter fun constants => ?_
  have rest (children : List TemplateNode) :
      Tally (markupPlaceholders constants ++ markupPlaceholders children) markupPlaceholders [] (do
        let expression ← expressionText? src model h.iterable
        return [.each expression ((h.item.map src.text).getD "_") key.1 (some key.2)
          (constants ++ children)]) := by
    refine ((plain_expressionText? h.iterable).tally _).map fun expression => ?_
    rw [markupPlaceholders_singleton, templatePlaceholders, markupPlaceholders_append]
  have := (hcontent.frame (markupPlaceholders constants)).bind rest
  rwa [List.append_nil] at this

/-- A list that is refused for what it runs over has spent what its items keep. -/
theorem spends_listMarkup (h : ListHead)
    (he : Ends none c (fun ns => markupLeftovers ns = ws) content)
    (hcontent : Tally [] markupPlaceholders lost content) :
    Spends [] (if (refusalOf (listKey src model h)).isSome then []
      else if (refusalOf (listConstants src model h)).isSome then [] else lost ++ ws)
      (listMarkup src model h content) := by
  refine Spends.thereafter (plain_listKey h).steady.endsAnyhow (plain_listKey h).spends
    ((plain_listKey h).tally []) fun key _ => ?_
  refine Spends.thereafter ((plain_listConstants h).steady.ends (yields_listConstants h))
    (plain_listConstants h).spends (tally_listConstants h) fun constants hconstants => ?_
  have never : Spends (markupPlaceholders constants) [] content := .of_never he
  refine Spends.bind he never (hcontent.frame (markupPlaceholders constants))
    fun children hchildren => ?_
  have plain : Plain src (expressionText? src model h.iterable) := plain_expressionText? h.iterable
  have iterable := plain.spends.frame (markupPlaceholders constants ++ markupPlaceholders children)
  rw [List.map_append, map_leftoverIn_markupPlaceholders, map_leftoverIn_markupPlaceholders,
    hconstants, hchildren, List.nil_append, List.append_nil] at iterable
  exact iterable.map

/-- A list loses what its items lose, and what they keep if it is refused after them. -/
theorem tally_listBlock (h : ListHead)
    (he : Ends none c (fun ns => markupLeftovers ns = ws) content)
    (hcontent : Tally [] markupPlaceholders lost content) :
    Tally [] markupPlaceholders
      (if (refusalOf (listKey src model h)).isSome then []
        else if (refusalOf (listConstants src model h)).isSome then []
        else lost ++ if (refusalOf (expressionText? src model h.iterable)).isSome then ws else [])
      (orPlaceholder src (some h.node) (listMarkup src model h content)) := by
  have block : Tally [] markupPlaceholders _
      (orPlaceholder src (some h.node) (listMarkup src model h content)) :=
    tally_orPlaceholder h.node (ends_listMarkup h he) (tally_listMarkup h hcontent)
      (spends_listMarkup h he hcontent)
  rw [listRefusal] at block
  -- A refusal before the content is built costs nothing; one after it costs the placeholders in it.
  cases hkey : refusalOf (listKey src model h) with
  | some r => simpa [hkey] using block
  | none =>
    cases hconstants : refusalOf (listConstants src model h) with
    | some r => simpa [hkey, hconstants] using block
    | none =>
      cases hiterable : refusalOf (expressionText? src model h.iterable) with
      | some r => simpa [hkey, hconstants, hiterable] using block
      | none => simpa [hkey, hconstants, hiterable] using block

end Content

/-- A slot has the placeholders of its body. -/
theorem markupPlaceholders_handedMarkup (name : String) (parameters : Option Node)
    (body : List TemplateNode) :
    markupPlaceholders (handedMarkup src name parameters body) = markupPlaceholders body := by
  unfold handedMarkup
  split
  · rfl
  · rw [markupPlaceholders_singleton, templatePlaceholders]

/-! ### Branches -/

/-- The placeholders in the branches of a condition, and where none of them holds. -/
def alternatePlaceholders (out : List IfBranch × Option (List TemplateNode)) : List Placeholder :=
  branchesPlaceholders out.1 ++ (out.2.map markupPlaceholders).getD []

/-- A block has the placeholders of its branches. -/
theorem templatePlaceholders_conditional (branches : List IfBranch)
    (otherwise : Option (List TemplateNode)) :
    templatePlaceholders (.conditional branches otherwise) =
      alternatePlaceholders (branches, otherwise) := by
  cases otherwise with
  | none => simp [templatePlaceholders, alternatePlaceholders]
  | some ns => rfl

theorem alternatePlaceholders_cons (shown : String) (content : List TemplateNode)
    (branches : List IfBranch) (otherwise : Option (List TemplateNode)) :
    alternatePlaceholders (.mk shown content :: branches, otherwise) =
      markupPlaceholders content ++ alternatePlaceholders (branches, otherwise) := by
  simp [alternatePlaceholders, branchesPlaceholders]

section Block

variable (condition : Option Node) {consequent : RenderNode} {alternate : Option RenderNode}

/-- A block that is not refused loses what its branches lose. -/
theorem tally_block
    (hconsequent : Tally [] markupPlaceholders (nodeLost src model consequent)
      (nodeMarkup src model consequent))
    (halternate : Tally [] alternatePlaceholders (alternateLost src model false alternate)
      (alternateMarkup src model alternate)) :
    Tally [] alternatePlaceholders
      (alternateLost src model false (some (.conditional condition consequent alternate)))
      (alternateMarkup src model (some (.conditional condition consequent alternate))) := by
  refine Tally.of_not_refused (ends_alternateMarkup _) fun hnone => ?_
  rw [alternateRefusal, blockRefusal, Option.or_eq_none_iff] at hnone
  rw [alternateLost, alternateMarkup, hnone.1]
  refine ((plain_expressionText? condition).tally []).thereafter fun shown => ?_
  refine hconsequent.bind fun content => ?_
  refine (halternate.frame _).map fun out => ?_
  rw [alternatePlaceholders_cons]

/-- A block that is refused has spent all that its branches have left behind until then. -/
theorem spends_block
    (hconsequent : Tally [] markupPlaceholders (nodeLost src model consequent)
      (nodeMarkup src model consequent))
    (halternate : Spends [] (alternateLost src model true alternate)
      (alternateMarkup src model alternate)) :
    Spends [] (alternateLost src model true (some (.conditional condition consequent alternate)))
      (alternateMarkup src model (some (.conditional condition consequent alternate))) := by
  rw [alternateLost, alternateMarkup]
  refine Spends.thereafter (plain_expressionText? condition).steady.endsAnyhow
    (plain_expressionText? condition).spends ((plain_expressionText? condition).tally [])
    fun shown _ => ?_
  have never : Spends [] [] (nodeMarkup src model consequent) := .of_never (ends_nodeMarkup _)
  refine Spends.bind (ends_nodeMarkup consequent) never hconsequent fun content hcontent => ?_
  have others := halternate.frame (markupPlaceholders content)
  rw [map_leftoverIn_markupPlaceholders, hcontent] at others
  exact others.map

/-- A block that is not refused is not given up. -/
theorem spends_of_unrefused {n : RenderNode} {spent : List Leftover}
    (h : blockRefusal src model n = none) :
    Spends [] spent (alternateMarkup src model (some n)) := by
  have never : Ends (alternateRefusal src model (some n)) _ _
      (alternateMarkup src model (some n)) := ends_alternateMarkup (some n)
  rw [alternateRefusal, h] at never
  exact .of_never never

end Block

/-! ### Render trees -/

mutual

/-- All placeholders made for a piece of a render tree are in its markup, but for those that are
lost with a block. -/
theorem tally_nodeMarkup (n : RenderNode) :
    Tally [] markupPlaceholders (nodeLost src model n) (nodeMarkup src model n) := by
  cases n with
  | fragment children =>
    rw [nodeMarkup, nodeLost]
    exact tally_nodesMarkup children
  | text value =>
    rw [nodeMarkup, nodeLost]
    exact .pure (.refl _)
  | unsupported n reason construct =>
    rw [nodeMarkup, nodeLost]
    exact (Tally.leave n reason construct "").map fun ph => .refl _
  | expression e =>
    rw [nodeMarkup, nodeLost]
    exact tally_orPlaceholder_of_plain e (plain_valueMarkup e) (yields_valueMarkup e)
  | rawHtml e =>
    rw [nodeMarkup, nodeLost]
    exact tally_orPlaceholder_of_plain e (.bind (plain_expressionText e) fun _ _ => .pure _ _)
      (.bind fun _ => .pure rfl)
  | element h children =>
    rw [nodeMarkup, nodeLost]
    exact tally_orPlaceholder_of_never h.node (ends_elementMarkup h (ends_nodesMarkup children))
      (tally_elementMarkup h (tally_nodesMarkup children))
  | component h slots =>
    rw [nodeMarkup, nodeLost]
    exact tally_orPlaceholder_of_never h.node (ends_instanceMarkup h (ends_slotsMarkup slots))
      (tally_instanceMarkup h (tally_slotsMarkup slots))
  | conditional condition consequent alternate =>
    rw [nodeMarkup_conditional, nodeLost_conditional]
    have made := tally_block condition (tally_nodeMarkup consequent)
      (tally_alternateMarkup alternate).1
    have spent := spends_block condition (tally_nodeMarkup consequent)
      (tally_alternateMarkup alternate).2
    cases condition with
    | none =>
      -- Without a condition the tree lacks a part, which is not caught.
      intro p ns q hrun
      have lacking : (do
          let made ← alternateMarkup src model (some (.conditional none consequent alternate))
          return [TemplateNode.conditional made.1 made.2]) p = .error .incomplete p := by
        rw [alternateMarkup]
        rfl
      rw [orPlaceholder, Ends.orElse_of_incomplete lacking] at hrun
      cases hrun
    | some condition =>
      have kept : Tally [] markupPlaceholders _ (do
          let out ← alternateMarkup src model
            (some (.conditional (some condition) consequent alternate))
          return [TemplateNode.conditional out.1 out.2]) :=
        made.map fun out => by
          rw [markupPlaceholders_singleton, templatePlaceholders_conditional]
      have block : Tally [] markupPlaceholders _ (orPlaceholder src (some condition) _) :=
        tally_orPlaceholder condition
          ((ends_alternateMarkup (some (.conditional (some condition) consequent alternate))).map
            (R := fun _ => True) fun _ _ => trivial)
          kept spent.map
      -- The flag of `alternateLost` tells the two ways in which the block may end.
      rw [alternateRefusal] at block
      cases hrefusal :
          (blockRefusal src model (.conditional (some condition) consequent alternate)).isSome with
      | true => rwa [hrefusal] at block
      | false => rwa [hrefusal] at block
  | list h body =>
    rw [nodeMarkup, nodeLost]
    exact tally_listBlock h (ends_nodeMarkup body) (tally_nodeMarkup body)
  | slot name callee arguments isOptional =>
    cases arguments with
    | nil =>
      -- With nothing to convert there is nothing to refuse.
      rw [nodeMarkup, nodeLost]
      intro p ns q hrun
      obtain ⟨call, hcall⟩ : ∃ call, slotMarkup src model callee [] isOptional p =
          .ok [.render call] p := ⟨_, rfl⟩
      rw [List.head?_nil, orPlaceholder, Ends.orElse_of_ok hcall] at hrun
      cases hrun
      exact ⟨[], .of_reports_eq rfl (.refl _), .refl _⟩
    | cons first rest =>
      rw [nodeMarkup, nodeLost]
      exact tally_orPlaceholder_of_plain first (plain_slotMarkup _ _ _) (.bind fun _ => .pure rfl)

/-- Nodes in a row. -/
theorem tally_nodesMarkup (ns : List RenderNode) :
    Tally [] markupPlaceholders (nodesLost src model ns) (nodesMarkup src model ns) := by
  cases ns with
  | nil =>
    rw [nodesMarkup, nodesLost]
    exact .pure (.refl _)
  | cons n rest =>
    rw [nodesMarkup, nodesLost]
    refine (tally_nodeMarkup n).bind fun first => ?_
    refine ((tally_nodesMarkup rest).frame _).map fun others => ?_
    rw [markupPlaceholders_append]

/-- Branches, both kept and given up. -/
theorem tally_alternateMarkup (alternate : Option RenderNode) :
    Tally [] alternatePlaceholders (alternateLost src model false alternate)
        (alternateMarkup src model alternate) ∧
      Spends [] (alternateLost src model true alternate) (alternateMarkup src model alternate) := by
  cases alternate with
  | none =>
    rw [alternateMarkup, alternateLost]
    exact ⟨.pure (.refl _), .of_never (.pure (Q := fun _ => True) trivial)⟩
  | some n =>
    cases n with
    -- A condition where none holds goes on with branches of its own.
    | conditional condition consequent alternate =>
      obtain ⟨made, spent⟩ := tally_alternateMarkup alternate
      exact ⟨tally_block condition (tally_nodeMarkup consequent) made,
        spends_block condition (tally_nodeMarkup consequent) spent⟩
    | _ =>
      constructor
      · rw [alternateMarkup, alternateLost]
        · exact (tally_nodeMarkup _).map fun content => .refl _
        all_goals simp
      · exact spends_of_unrefused rfl

/-- Slots in a row. -/
theorem tally_slotsMarkup (slots : List SlotContent) :
    Tally [] markupPlaceholders (slotsLost src model slots) (slotsMarkup src model slots) := by
  cases slots with
  | nil =>
    rw [slotsMarkup, slotsLost]
    exact .pure (.refl _)
  | cons slot rest =>
    cases slot with
    | mk name parameters body =>
      rw [slotsMarkup, slotsLost]
      refine (tally_nodeMarkup body).bind fun content => ?_
      refine ((tally_slotsMarkup rest).frame _).map fun others => ?_
      rw [markupPlaceholders_append, markupPlaceholders_handedMarkup]

end

/-! ### Components -/

/-- A snippet loses what its body loses. -/
theorem tally_snippetMarkup (s : Render.Snippet) :
    Tally [] templatePlaceholders (nodeLost src model s.body) (snippetMarkup src model s) :=
  (tally_nodeMarkup s.body).map fun content => by rw [templatePlaceholders]

/-- A tree that may be missing. -/
theorem tally_optionalMarkup (n : Option RenderNode) :
    Tally [] markupPlaceholders (n.toList.flatMap (nodeLost src model))
      (optionalMarkup src model n) := by
  cases n with
  | none => exact .pure (.refl _)
  | some n =>
    rw [Option.toList_some, List.flatMap_singleton]
    exact tally_nodeMarkup n

/-- All placeholders made for the parts of a component are in it, but for those that are lost with a
block of its markup. -/
theorem tally_assembleComponent :
    Tally [] placeholders ((shownPieces model).flatMap (nodeLost src model))
      (assembleComponent src model indent) := by
  have snippet (s : Render.Snippet) : Tally [] templatePlaceholders (nodeLost src model s.body)
      (snippetMarkup src model s) := tally_snippetMarkup s
  have snippets := Tally.mapM (l := model.snippets) fun s _ => snippet s
  have shown : (shownPieces model).flatMap (nodeLost src model) =
      model.snippets.flatMap (fun s => nodeLost src model s.body) ++
        (model.renderTree.toList.flatMap (nodeLost src model) ++ []) := by
    rw [shownPieces, List.flatMap_append, List.flatMap_map, List.append_nil]
  rw [shown]
  refine (plain_propsDeclaration.tally []).thereafter fun props => ?_
  refine tally_declarationGroups.thereafter fun groups => ?_
  refine (tally_provisionNodes.frame _).thereafter fun provisions => ?_
  refine (snippets.frame _).bind fun snippets => ?_
  refine ((tally_optionalMarkup model.renderTree).frame _).bind fun markup => ?_
  refine (tally_moduleParts.frame _).thereafter fun parts => Tally.get.map fun progress => ?_
  have noProps : scriptPlaceholders (props.toList.map .props) = [] := by cases props <;> rfl
  have sorted : ((inSourceOrder (parts.declarations ++ groups)).flatMap groupPlaceholders).Perm
      ((parts.declarations ++ groups).flatMap groupPlaceholders) :=
    (List.mergeSort_perm _ _).flatMap_right _
  -- The parts stand in another order in the component, so both sides are counted.
  rw [List.perm_iff_count] at sorted ⊢
  intro ph
  have := sorted ph
  simp only [placeholders, partsPlaceholders, scriptPlaceholders_append, scriptPlaceholders_flatMap,
    noProps, markupPlaceholders_eq, List.flatMap_append, List.append_nil,
    List.count_append] at this ⊢
  omega

end Sveltify.Assembly
