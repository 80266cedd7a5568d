import Sveltify.Proofs.Assembly.Layout
import Sveltify.Proofs.Assembly.Markup
import Sveltify.Proofs.Expression.Copy

namespace Sveltify.Assembly

open Analysis Component Expression Svelte Text
open Render (ElementHead InstanceHead ListHead RenderNode Snippet SlotContent)

/-!
# Patterns are copied

Names are bound by patterns: those of derived values and consumed contexts, the items of lists and
the parameters of markup that is handed around. All other text of a component is converted, but a
pattern is copied from the source. This is the same as long as nothing in it needs to be converted.
The default value of a pattern may need it, and stays as it was.

* `PatternSource`: a pattern of the source, `copied` or `converted?`;
* `scriptPatterns`, `markupPatterns`: the texts of patterns in a script and in markup;
* `boundPatterns`, `renderedPatterns`: the patterns of a component;
* `Gathered`: some texts are found among others, and all of them where nothing is left behind;
* `patterns_copied`: all texts of patterns are copies;
* `pattern_keeps_setter`: a pattern that differs from its conversion.
-/

variable {src : Source} {model : Model} {indent : String}

/-! ### Patterns of the source -/

/-- What the text of a pattern is made from. -/
inductive PatternSource where
  /-- A pattern. -/
  | binding (n : Node)
  /-- A parameter list, which loses the parentheses around it. -/
  | parameters (n : Node)
  /-- The source has no pattern, so the text is a fixed one. -/
  | absent (text : String)

namespace PatternSource

/-- The node of a pattern. -/
def node? : PatternSource → Option Node
  | .binding n | .parameters n => some n
  | .absent _ => none

/-- A text without the parentheses around it, if it is that of a parameter list. -/
def withoutParens (kind text : String) : String :=
  let text := strip text
  if kind == "formal_parameters" && isParenthesised text then strip (withoutEnds text) else text

/-- The pattern as it stands in the source. -/
def copied (src : Source) : PatternSource → String
  | .binding n => src.text n
  | .parameters n => withoutParens n.kind (src.text n)
  | .absent text => text

/-- The pattern converted like an expression; none if it is refused. -/
def converted? (src : Source) (model : Model) : PatternSource → Option String
  | .binding n => resultOf? (Expression.convert src model [] false n)
  | .parameters n =>
    (resultOf? (Expression.convert src model [] false n)).map (withoutParens n.kind)
  | .absent text => some text

/-- A pattern in which nothing is converted is copied and converted to the same text. -/
theorem converted_eq_copied {p : PatternSource}
    (h : ∀ n ∈ p.node?, Node.WellPlaced src n ∧ Untouched src model n) :
    p.converted? src model = some (p.copied src) := by
  have copy {n : Node} (hn : p.node? = some n) :
      resultOf? (Expression.convert src model [] false n) = some (src.text n) := by
    obtain ⟨hplaced, huntouched⟩ := h n hn
    rw [convert_of_untouched hplaced huntouched]
    rfl
  cases p with
  | binding n => exact copy rfl
  | parameters n => rw [converted?, copy rfl, Option.map_some, copied]
  | absent text => rfl

end PatternSource

/-- The pattern of the items of a list. -/
def itemPattern : Option Node → PatternSource
  | some n => .binding n
  | none => .absent "_"

/-- An item without a name is `_`. -/
theorem copied_itemPattern (item : Option Node) :
    (itemPattern item).copied src = (item.map src.text).getD "_" := by
  cases item <;> rfl

/-- The parameters of markup that is handed around. -/
def parameterPattern : Option Node → PatternSource
  | some n => .parameters n
  | none => .absent ""

/-- The parameters of a snippet are copied. -/
theorem copied_parameterPattern (parameters : Option Node) :
    (parameterPattern parameters).copied src = parametersText src parameters := by
  cases parameters <;> rfl

/-- The pattern of a derived value. -/
def derivedPattern (d : DerivedBinding) : PatternSource :=
  match d.node.field? "name" with
  | some n => .binding n
  | none => .absent d.name

/-- A derived value has the text of its pattern, or its name. -/
theorem copied_derivedPattern (d : DerivedBinding) :
    (derivedPattern d).copied src = ((d.node.field? "name").map src.text).getD d.name := by
  unfold derivedPattern
  cases d.node.field? "name" <;> rfl

/-! ### Texts that are found -/

/-- The texts are found among those of `all`, in order. They are all of them, unless something is
left behind. -/
structure Gathered (all found : List String) (left : List Leftover) : Prop where
  sublist : found.Sublist all
  whole : left = [] → found = all

namespace Gathered

variable {all all' found found' : List String} {left left' : List Leftover}

/-- All texts are found. -/
theorem refl (all : List String) (left : List Leftover) : Gathered all all left :=
  ⟨List.Sublist.refl _, fun _ => rfl⟩

/-- Where something is left over, texts may be missing. -/
theorem of_left (h : left ≠ []) : Gathered all [] left :=
  ⟨List.nil_sublist _, fun hleft => absurd hleft h⟩

theorem append (h : Gathered all found left) (h' : Gathered all' found' left') :
    Gathered (all ++ all') (found ++ found') (left ++ left') := by
  refine ⟨h.sublist.append h'.sublist, fun hleft => ?_⟩
  obtain ⟨hl, hl'⟩ := List.append_eq_nil_iff.1 hleft
  rw [h.whole hl, h'.whole hl']

theorem cons (text : String) (h : Gathered all found left) :
    Gathered (text :: all) (text :: found) left :=
  (refl [text] []).append h

end Gathered

/-! ### Patterns in scripts -/

/-- The text of the pattern in an entry of a script. -/
def entryPattern? : ScriptNode → Option String
  | .derived d => some d.target
  | .contextGet d => some d.target
  | _ => none

/-- The texts of the patterns in a script. -/
def scriptPatterns (entries : List ScriptNode) : List String := entries.filterMap entryPattern?

/-- The patterns that the script of a component binds. -/
def boundPatterns (model : Model) : List PatternSource :=
  model.derived.values.map derivedPattern
    ++ (model.contexts.filter (·.direction == .consume)).flatMap fun u =>
      u.binding.toList.map .binding

theorem scriptPatterns_append (as bs : List ScriptNode) :
    scriptPatterns (as ++ bs) = scriptPatterns as ++ scriptPatterns bs :=
  List.filterMap_append

/-- Basic entries bind no pattern. -/
theorem scriptPatterns_of_basic {entries : List ScriptNode}
    (h : ∀ entry ∈ entries, isBasic entry = true) : scriptPatterns entries = [] := by
  refine List.filterMap_eq_nil_iff.2 fun entry hentry => ?_
  have := h entry hentry
  cases entry <;> first | rfl | cases this

/-- What a piece becomes binds these patterns. -/
def Binds (src : Source) (p : Piece) (texts : List String) : Prop :=
  ∀ entries, Written src p entries →
    Gathered texts (scriptPatterns entries) (scriptLeftovers entries)

/-- What is built decides which patterns are bound. -/
theorem Binds.of_build {p : Piece} {texts : List String}
    (h : Yields (fun entries => scriptPatterns entries = texts) p.build) : Binds src p texts := by
  intro entries hwritten
  cases hwritten with
  | built hrun =>
    rw [h hrun]
    exact .refl _ _
  | left _ _ => exact .of_left (by simp [scriptLeftovers, entryLeftover?])

/-- A piece of basic entries binds none. -/
theorem Binds.of_basic {p : Piece} (h : p.BuildsBasic) : Binds src p [] := by
  intro entries hwritten
  rw [scriptPatterns_of_basic (hwritten.basic h)]
  exact .refl _ _

/-- The sorted pieces of a component, each with the texts of its patterns. -/
def bindingPieces (src : Source) (model : Model) (indent : String) : List (Piece × List String) :=
  (kindPieces src model .declaration model.moduleItems).map (·, [])
    ++ (model.state.values.map fun b => (statePiece src model indent b, []))
    ++ (model.derived.values.map fun d =>
      (derivedPiece src model d, [(derivedPattern d).copied src]))
    ++ (model.effects.map fun e => (effectPiece src model e, []))
    ++ ((model.contexts.filter (·.direction == .consume)).map fun u =>
      (consumerPiece src model u, u.binding.toList.map src.text))
    ++ ((model.refs.values.filter (!·.isForwarded)).map fun r => (refPiece src model r, []))
    ++ (model.locals.map fun l => (localPiece src model indent l, []))

/-- The pieces are those of the script, in its order. -/
theorem map_fst_bindingPieces :
    (bindingPieces src model indent).map Prod.fst = orderedPieces src model indent := by
  simp [bindingPieces, orderedPieces, declarationPieces, Function.comp_def]

/-- Their patterns are those that the script binds. -/
theorem flatMap_snd_bindingPieces :
    (bindingPieces src model indent).flatMap Prod.snd =
      (boundPatterns model).map (PatternSource.copied src) := by
  have without {γ : Type} (l : List γ) : l.flatMap (fun _ => ([] : List String)) = [] := by simp
  simp only [bindingPieces, boundPatterns, List.flatMap_append, List.flatMap_map, List.map_append,
    List.map_map, List.map_flatMap, without, List.nil_append, List.append_nil]
  rw [← List.map_eq_flatMap]
  rfl

/-- Each piece binds the pattern beside it. -/
theorem binds_of_mem {p : Piece × List String} (hp : p ∈ bindingPieces src model indent) :
    Binds src p.1 p.2 := by
  simp only [bindingPieces, kindPieces, List.mem_append, List.mem_map] at hp
  rcases hp with (((((⟨_, ⟨item, -, rfl⟩, rfl⟩ | ⟨b, -, rfl⟩) | ⟨d, -, rfl⟩) | ⟨e, -, rfl⟩) |
    ⟨u, -, rfl⟩) | ⟨r, -, rfl⟩) | ⟨l, -, rfl⟩
  · exact .of_basic (buildsBasic_itemPiece item)
  · exact .of_basic (buildsBasic_statePiece b)
  · refine .of_build (.bind fun _ => .pure ?_)
    rw [copied_derivedPattern]
    rfl
  · exact .of_build (.bind fun _ => .bind fun _ => .pure rfl)
  · refine .of_build (.bind fun _ => .bind fun _ => ?_)
    intro p entries q hrun
    -- A context that is consumed without a binding stops the assembly.
    obtain ⟨n, p₁, hn, hrun⟩ := bind_ok_iff.1 hrun
    cases hrun
    rw [(need_ok_iff.1 hn).1]
    rfl
  · exact .of_build (.bind fun _ => .pure rfl)
  · exact .of_basic (buildsBasic_localPiece l)

/-- Pieces that are written show their patterns. -/
theorem gathered_flatten {pieces : List (Piece × List String)} {groups : List (List ScriptNode)}
    (h : List.Forall₂ (fun p entries => Written src p.1 entries) pieces groups)
    (hp : ∀ p ∈ pieces, Binds src p.1 p.2) :
    Gathered (pieces.flatMap Prod.snd) (scriptPatterns groups.flatten)
      (scriptLeftovers groups.flatten) := by
  induction h with
  | nil => exact .refl _ _
  | cons hg _ ih =>
    rw [List.flatten_cons, scriptPatterns_append, scriptLeftovers_append, List.flatMap_cons]
    exact (hp _ (by simp) _ hg).append (ih fun q hq => hp q (by simp [hq]))

/-- Pieces without patterns show none. -/
theorem scriptPatterns_entries {pieces : List Piece} {entries : List ScriptNode}
    (h : List.Forall₂ (WrittenAs src) pieces entries) (hp : ∀ p ∈ pieces, Binds src p []) :
    scriptPatterns entries = [] := by
  induction h with
  | nil => rfl
  | @cons p entry ps entries hw _ ih =>
    have first : scriptPatterns [entry] = [] := List.sublist_nil.1 (hp p (by simp) _ hw).sublist
    rw [← List.singleton_append, scriptPatterns_append, first,
      ih fun q hq => hp q (by simp [hq])]
    rfl

/-- Only what is sorted into the source order binds patterns. -/
theorem Layout.scriptPatterns_eq {script : List ScriptNode} (l : Layout src model indent script) :
    scriptPatterns script = scriptPatterns l.groups.flatten := by
  have types : scriptPatterns l.types = [] := by
    refine scriptPatterns_entries l.types_written fun p hp => ?_
    obtain ⟨item, -, rfl⟩ := List.mem_map.1 hp
    exact .of_basic (buildsBasic_itemPiece item)
  have props : scriptPatterns (l.props.toList.map .props) = [] := by
    cases l.props <;> rfl
  have provisions : scriptPatterns l.provisions = [] := by
    refine scriptPatterns_entries l.provisions_written fun p hp => ?_
    obtain ⟨u, -, rfl⟩ := List.mem_map.1 hp
    exact .of_build (.bind fun _ => .pure rfl)
  have := congrArg scriptPatterns l.parts
  rwa [scriptPatterns_append, scriptPatterns_append, scriptPatterns_append, types, props,
    provisions, List.nil_append, List.nil_append, List.append_nil] at this

/-- The patterns in a script are those of the component, as they stand in the source. -/
theorem Layout.exists_gathered {script : List ScriptNode} (l : Layout src model indent script) :
    ∃ found, found.Perm (scriptPatterns script) ∧
      Gathered ((boundPatterns model).map (PatternSource.copied src)) found
        (scriptLeftovers script) := by
  -- In the order of the pieces the texts are in order; the script has them sorted.
  obtain ⟨groups, hperm, hgroups⟩ := l.exists_groups
  rw [← map_fst_bindingPieces, List.forall₂_map_left_iff] at hgroups
  have bound := gathered_flatten hgroups fun p hp => binds_of_mem hp
  rw [flatMap_snd_bindingPieces] at bound
  refine ⟨scriptPatterns groups.flatten, ?_, bound.sublist, fun hleft => bound.whole ?_⟩
  · rw [l.scriptPatterns_eq]
    exact hperm.flatten.filterMap entryPattern?
  · have inGroups : scriptLeftovers l.groups.flatten = [] := by
      have := congrArg scriptLeftovers l.parts
      rw [hleft, scriptLeftovers_append, scriptLeftovers_append] at this
      exact (List.append_eq_nil_iff.1 (List.append_eq_nil_iff.1 this.symm).1).2
    have leftovers : (scriptLeftovers groups.flatten).Perm (scriptLeftovers l.groups.flatten) :=
      hperm.flatten.filterMap entryLeftover?
    rw [inGroups] at leftovers
    exact leftovers.eq_nil

/-! ### Patterns in markup -/

mutual

/-- The texts of the patterns in a piece of markup. -/
def templatePatterns : TemplateNode → List String
  | .element _ _ children _ => markupPatterns children
  | .component _ _ children => markupPatterns children
  | .conditional branches none => branchesPatterns branches
  | .conditional branches (some otherwise) => branchesPatterns branches ++ markupPatterns otherwise
  | .each _ item _ _ children => item :: markupPatterns children
  | .snippet _ parameters children => parameters :: markupPatterns children
  | _ => []

/-- The texts of the patterns in markup. -/
def markupPatterns : List TemplateNode → List String
  | [] => []
  | n :: rest => templatePatterns n ++ markupPatterns rest

/-- The texts of the patterns in the branches of a condition. -/
def branchesPatterns : List IfBranch → List String
  | [] => []
  | .mk _ children :: rest => markupPatterns children ++ branchesPatterns rest

end

theorem markupPatterns_append (as bs : List TemplateNode) :
    markupPatterns (as ++ bs) = markupPatterns as ++ markupPatterns bs := by
  induction as with
  | nil => rfl
  | cons n as ih => rw [List.cons_append, markupPatterns, ih, markupPatterns, List.append_assoc]

theorem markupPatterns_singleton (n : TemplateNode) : markupPatterns [n] = templatePatterns n := by
  rw [markupPatterns, markupPatterns, List.append_nil]

/-- Markup without patterns at any entry. -/
theorem markupPatterns_eq_nil {γ : Type} {l : List γ} {ns : List TemplateNode}
    (h : List.Forall₂ (fun _ n => templatePatterns n = []) l ns) : markupPatterns ns = [] := by
  induction h with
  | nil => rfl
  | cons hn _ ih => rw [markupPatterns, hn, ih, List.nil_append]

/-- The patterns of markup that is handed over. Plain content has no parameter list. -/
def handedPatterns (name : String) (parameters : Option Node) (body : List PatternSource) :
    List PatternSource :=
  if name == "children" && parameters.isNone then body else parameterPattern parameters :: body

mutual

/-- The patterns in a piece of a render tree. -/
def nodePatterns : RenderNode → List PatternSource
  | .fragment children => nodesPatterns children
  | .element _ children => nodesPatterns children
  | .component _ slots => slotsPatterns slots
  | .conditional _ consequent alternate => nodePatterns consequent ++ alternatePatterns alternate
  | .list h body => itemPattern h.item :: nodePatterns body
  | _ => []

/-- The patterns in several pieces. -/
def nodesPatterns : List RenderNode → List PatternSource
  | [] => []
  | n :: rest => nodePatterns n ++ nodesPatterns rest

/-- The patterns in an optional piece. -/
def alternatePatterns : Option RenderNode → List PatternSource
  | none => []
  | some n => nodePatterns n

/-- The patterns in the markup handed to a component instance. -/
def slotsPatterns : List SlotContent → List PatternSource
  | [] => []
  | .mk name parameters body :: rest =>
    handedPatterns name parameters (nodePatterns body) ++ slotsPatterns rest

end

/-- The patterns in markup that is given a name. -/
def snippetPatterns (s : Snippet) : List PatternSource :=
  parameterPattern s.parameters :: nodePatterns s.body

/-- The patterns that the markup of a component binds. -/
def renderedPatterns (model : Model) : List PatternSource :=
  model.snippets.flatMap snippetPatterns ++ alternatePatterns model.renderTree

/-- The markup binds copies of these patterns. -/
def Shows (src : Source) (patterns : List PatternSource) (ns : List TemplateNode) : Prop :=
  Gathered (patterns.map (PatternSource.copied src)) (markupPatterns ns) (markupLeftovers ns)

/-- Two pieces of markup side by side. -/
theorem Shows.append {patterns patterns' : List PatternSource} {ns ns' : List TemplateNode}
    (h : Shows src patterns ns) (h' : Shows src patterns' ns') :
    Shows src (patterns ++ patterns') (ns ++ ns') := by
  unfold Shows
  rw [List.map_append, markupPatterns_append, markupLeftovers_append]
  exact Gathered.append h h'

/-- One node of markup. -/
theorem shows_singleton {patterns : List PatternSource} {n : TemplateNode} :
    Shows src patterns [n] ↔ Gathered (patterns.map (PatternSource.copied src))
      (templatePatterns n) (templateLeftovers n) := by
  unfold Shows
  rw [markupPatterns_singleton, markupLeftovers, markupLeftovers, List.append_nil]

/-- Markup without patterns. -/
theorem Shows.of_nil {ns : List TemplateNode} (h : markupPatterns ns = []) : Shows src [] ns := by
  unfold Shows
  rw [h]
  exact .refl _ _

variable {patterns : List PatternSource}

/-! ### Placeholders and attributes -/

/-- A placeholder has no patterns, and tells that something is left behind. -/
theorem shows_orPlaceholder {anchor : Option Node} {build : Assembling (List TemplateNode)}
    (h : Yields (Shows src patterns) build) :
    Yields (Shows src patterns) (orPlaceholder src anchor build) := by
  refine yields_orElse h fun r => ?_
  cases anchor with
  | none => exact .throw _
  | some n =>
    refine .bind fun _ => .pure (shows_singleton.2 (.of_left ?_))
    simp [templateLeftovers]

/-- The markup is nothing but placeholders. -/
def IsBare (ns : List TemplateNode) : Prop := ∀ n ∈ ns, ∃ p, n = .placeholder p

theorem IsBare.append {ns ns' : List TemplateNode} (h : IsBare ns) (h' : IsBare ns') :
    IsBare (ns ++ ns') := fun n hn => (List.mem_append.1 hn).elim (h n) (h' n)

/-- Placeholders, one for each entry. -/
theorem IsBare.of_forall₂ {γ : Type} {l : List γ} {ns : List TemplateNode}
    (h : List.Forall₂ (fun _ n => ∃ p, n = .placeholder p) l ns) : IsBare ns := by
  induction h with
  | nil => exact List.forall_mem_nil _
  | cons hn _ ih => exact List.forall_mem_cons.2 ⟨hn, ih⟩

/-- Placeholders show no pattern. -/
theorem IsBare.markupPatterns {ns : List TemplateNode} (h : IsBare ns) :
    markupPatterns ns = [] := by
  induction ns with
  | nil => rfl
  | cons n ns ih =>
    obtain ⟨⟨p, rfl⟩, hrest⟩ := List.forall_mem_cons.1 h
    exact ih hrest

/-- An attribute that is refused leaves a placeholder. -/
theorem yields_addAttributes (n : Node) (build : Assembling (List TemplateAttribute))
    {done : Attributes} (hdone : IsBare done.before) :
    Yields (fun a => IsBare a.before) (addAttributes src n build done) := by
  refine yields_orElse (.bind fun _ => .pure hdone) fun r => .bind fun p => .pure ?_
  exact hdone.append (List.forall_mem_singleton.2 ⟨p, rfl⟩)

/-- Only placeholders stand before an element or a component instance for its attributes. -/
theorem yields_foldAttributes {γ : Type} {node : γ → Node}
    {build : γ → Assembling (List TemplateAttribute)} (l : List γ) :
    Yields (fun a => IsBare a.before)
      (l.foldlM (fun done b => addAttributes src (node b) (build b) done) {}) := by
  have start : IsBare ({} : Attributes).before := List.forall_mem_nil _
  have step (done : List γ) (a : Attributes) (b : γ) (ha : IsBare a.before) :
      Yields (fun a => IsBare a.before) (addAttributes src (node b) (build b) a) :=
    yields_addAttributes (node b) (build b) ha
  exact @Yields.foldlM _ _ Attributes _ (fun _ a => IsBare a.before) _ step l [] _ start

/-- In front of an element there are only placeholders. -/
theorem yields_elementAttributes (h : ElementHead) :
    Yields (fun a => IsBare a.before) (elementAttributes src model h) := by
  have reference (e : Node) : Yields (fun n => ∃ p, n = .placeholder p) (do
      return TemplateNode.placeholder (← leave src e callbackRef (some "ref") "")) :=
    .bind fun p => .pure ⟨p, rfl⟩
  refine (yields_foldAttributes (itemsOf h)).andThen fun done hdone => ?_
  refine (Yields.mapM fun e _ => reference e).andThen fun placeholders hplaceholders => .pure ?_
  exact hdone.append (.of_forall₂ hplaceholders)

/-! ### Pieces of markup -/

section Content

variable {content : Assembling (List TemplateNode)}

/-- An element shows the patterns of its content. -/
theorem shows_elementMarkup (h : ElementHead) (hcontent : Yields (Shows src patterns) content) :
    Yields (Shows src patterns) (elementMarkup src model h content) := by
  refine (yields_elementAttributes h).andThen fun a ha => ?_
  refine hcontent.andThen fun children hchildren => .pure ?_
  exact (Shows.of_nil ha.markupPatterns).append (shows_singleton.2 hchildren)

/-- So does a component. -/
theorem shows_instanceMarkup (h : InstanceHead) (hcontent : Yields (Shows src patterns) content) :
    Yields (Shows src patterns) (instanceMarkup src model h content) := by
  refine .bind fun _ => (yields_foldAttributes h.props).andThen fun a ha => ?_
  refine hcontent.andThen fun children hchildren => .pure ?_
  exact (Shows.of_nil ha.markupPatterns).append (shows_singleton.2 hchildren)

/-- A list binds its items by a copy of their pattern. -/
theorem shows_listMarkup (h : ListHead) (hcontent : Yields (Shows src patterns) content) :
    Yields (Shows src (itemPattern h.item :: patterns)) (listMarkup src model h content) := by
  have constant (d : Node) : Yields (fun n => templatePatterns n = [])
      (do return TemplateNode.constant (← converted src model d)) :=
    .bind fun _ => .pure rfl
  refine .bind fun made => ?_
  refine (Yields.mapM fun d _ => constant d).andThen fun constants hconstants => ?_
  refine hcontent.andThen fun children hchildren => .bind fun _ => .pure ?_
  have inner : Shows src patterns (constants ++ children) :=
    (Shows.of_nil (markupPatterns_eq_nil hconstants)).append hchildren
  rw [shows_singleton, List.map_cons, copied_itemPattern]
  exact inner.cons _

/-- Markup that is handed around binds its parameters by a copy of their list. -/
theorem shows_snippet (name : String) (parameters : Option Node) {body : List TemplateNode}
    (hbody : Shows src patterns body) :
    Shows src (parameterPattern parameters :: patterns)
      [.snippet name (parametersText src parameters) body] := by
  rw [shows_singleton, List.map_cons, copied_parameterPattern]
  exact hbody.cons _

/-- A slot shows its parameters and then the patterns of its body. -/
theorem shows_handedMarkup (name : String) (parameters : Option Node) {body : List TemplateNode}
    (hbody : Shows src patterns body) :
    Shows src (handedPatterns name parameters patterns)
      (handedMarkup src name parameters body) := by
  unfold handedPatterns handedMarkup
  split
  · exact hbody
  · exact shows_snippet name parameters hbody

end Content

/-! ### Render trees -/

/-- The texts of the patterns in the branches of a condition, and where none of them holds. -/
def alternateTexts : List IfBranch × Option (List TemplateNode) → List String
  | (branches, otherwise) => branchesPatterns branches ++ (otherwise.map markupPatterns).getD []

/-- A block shows the patterns of its branches. -/
theorem templatePatterns_conditional (branches : List IfBranch)
    (otherwise : Option (List TemplateNode)) :
    templatePatterns (.conditional branches otherwise) = alternateTexts (branches, otherwise) := by
  cases otherwise with
  | none => simp [templatePatterns, alternateTexts]
  | some ns => rfl

theorem alternateTexts_cons (shown : String) (content : List TemplateNode)
    (branches : List IfBranch) (otherwise : Option (List TemplateNode)) :
    alternateTexts (.mk shown content :: branches, otherwise) =
      markupPatterns content ++ alternateTexts (branches, otherwise) := by
  simp [alternateTexts, branchesPatterns]

/-- The branches of a condition, and what stands where none of them holds, bind copies of these
patterns. -/
def ShowsAlternate (src : Source) (patterns : List PatternSource)
    (made : List IfBranch × Option (List TemplateNode)) : Prop :=
  Gathered (patterns.map (PatternSource.copied src)) (alternateTexts made) (alternateKept made)

/-- One branch more. -/
theorem ShowsAlternate.cons {patterns patterns' : List PatternSource} (shown : String)
    {content : List TemplateNode} {made : List IfBranch × Option (List TemplateNode)}
    (h : Shows src patterns content) (h' : ShowsAlternate src patterns' made) :
    ShowsAlternate src (patterns ++ patterns') (.mk shown content :: made.1, made.2) := by
  unfold ShowsAlternate
  rw [List.map_append, alternateTexts_cons, alternateKept_cons]
  exact Gathered.append h h'

/-- Branches shown as a block. -/
theorem ShowsAlternate.conditional {made : List IfBranch × Option (List TemplateNode)}
    (h : ShowsAlternate src patterns made) : Shows src patterns [.conditional made.1 made.2] := by
  rw [shows_singleton, templatePatterns_conditional, templateLeftovers_conditional]
  exact h

mutual

/-- The markup of a piece of a render tree binds copies of the patterns in the piece. -/
theorem shows_nodeMarkup (n : RenderNode) :
    Yields (Shows src (nodePatterns n)) (nodeMarkup src model n) := by
  -- Lists and snippets add patterns of their own; other pieces have those of their content.
  cases n with
  | fragment children =>
    rw [nodeMarkup, nodePatterns]
    exact shows_nodesMarkup children
  | text value =>
    rw [nodeMarkup]
    exact .pure (.of_nil rfl)
  | unsupported n reason construct =>
    rw [nodeMarkup]
    exact .bind fun _ => .pure (.of_nil rfl)
  | expression e =>
    rw [nodeMarkup]
    refine shows_orPlaceholder ?_
    unfold valueMarkup
    split
    · exact .pure (.of_nil rfl)
    · exact .bind fun _ => .pure (.of_nil rfl)
  | rawHtml e =>
    rw [nodeMarkup]
    exact shows_orPlaceholder (.bind fun _ => .pure (.of_nil rfl))
  | element h children =>
    rw [nodeMarkup, nodePatterns]
    exact shows_orPlaceholder (shows_elementMarkup h (shows_nodesMarkup children))
  | component h slots =>
    rw [nodeMarkup, nodePatterns]
    exact shows_orPlaceholder (shows_instanceMarkup h (shows_slotsMarkup slots))
  | conditional condition consequent alternate =>
    rw [nodeMarkup, nodePatterns]
    refine shows_orPlaceholder (.bind fun shown => ?_)
    refine (shows_nodeMarkup consequent).andThen fun content hcontent => ?_
    refine (shows_alternateMarkup alternate).andThen fun made hmade => .pure ?_
    exact (hmade.cons shown hcontent).conditional
  | list h body =>
    rw [nodeMarkup, nodePatterns]
    exact shows_orPlaceholder (shows_listMarkup h (shows_nodeMarkup body))
  | slot name callee arguments isOptional =>
    rw [nodeMarkup]
    exact shows_orPlaceholder (.bind fun _ => .pure (.of_nil rfl))

/-- Nodes show their patterns in order. -/
theorem shows_nodesMarkup (ns : List RenderNode) :
    Yields (Shows src (nodesPatterns ns)) (nodesMarkup src model ns) := by
  cases ns with
  | nil =>
    rw [nodesMarkup]
    exact .pure (.of_nil rfl)
  | cons n rest =>
    rw [nodesMarkup, nodesPatterns]
    refine (shows_nodeMarkup n).andThen fun first hfirst => ?_
    exact (shows_nodesMarkup rest).andThen fun others hothers => .pure (hfirst.append hothers)

/-- The branches that follow on a condition. -/
theorem shows_alternateMarkup (alternate : Option RenderNode) :
    Yields (ShowsAlternate src (alternatePatterns alternate))
      (alternateMarkup src model alternate) := by
  cases alternate with
  | none =>
    rw [alternateMarkup]
    exact .pure (.refl _ _)
  | some n =>
    cases n with
    -- A condition where none holds goes on with branches of its own.
    | conditional condition consequent alternate =>
      rw [alternateMarkup, alternatePatterns, nodePatterns]
      refine .bind fun shown => ?_
      refine (shows_nodeMarkup consequent).andThen fun content hcontent => ?_
      exact (shows_alternateMarkup alternate).andThen fun made hmade =>
        .pure (hmade.cons shown hcontent)
    | _ =>
      rw [alternateMarkup, alternatePatterns]
      · exact (shows_nodeMarkup _).andThen fun content hcontent => .pure hcontent
      all_goals simp

/-- So do slots. -/
theorem shows_slotsMarkup (slots : List SlotContent) :
    Yields (Shows src (slotsPatterns slots)) (slotsMarkup src model slots) := by
  cases slots with
  | nil =>
    rw [slotsMarkup]
    exact .pure (.of_nil rfl)
  | cons slot rest =>
    cases slot with
    | mk name parameters body =>
      rw [slotsMarkup, slotsPatterns]
      refine (shows_nodeMarkup body).andThen fun content hcontent => ?_
      refine (shows_slotsMarkup rest).andThen fun others hothers => .pure ?_
      exact (shows_handedMarkup name parameters hcontent).append hothers

end

/-! ### Components -/

/-- Snippets show their parameters and their bodies. -/
theorem shows_snippets {snippets : List Snippet} {ns : List TemplateNode}
    (h : List.Forall₂ (fun s n => Shows src (snippetPatterns s) [n]) snippets ns) :
    Shows src (snippets.flatMap snippetPatterns) ns := by
  induction h with
  | nil => exact .of_nil rfl
  | cons hn _ ih => exact hn.append ih

/-- A tree that may be missing. -/
theorem shows_optionalMarkup (r : Option RenderNode) :
    Yields (Shows src (alternatePatterns r)) (optionalMarkup src model r) := by
  cases r with
  | none => exact .pure (.of_nil rfl)
  | some n => exact shows_nodeMarkup n

/-- The template shows the patterns of the render trees. -/
theorem shows_template {reports reports' : List Report} {c : SvelteComponent}
    (h : toSvelte src model indent reports = .ok c reports') :
    Shows src (renderedPatterns model) c.template := by
  have snippet (s : Snippet) :
      Yields (fun n => Shows src (snippetPatterns s) [n]) (snippetMarkup src model s) :=
    (shows_nodeMarkup s.body).andThen fun body hbody =>
      .pure (shows_snippet s.name s.parameters hbody)
  obtain ⟨snippets, markup, hsnippets, hmarkup, htemplate⟩ :=
    exists_template snippet (shows_optionalMarkup model.renderTree) h
  rw [htemplate]
  exact (shows_snippets hsnippets).append hmarkup

/-- The texts of the patterns of a Svelte component are copies of those of the source, each of them
once where nothing is refused. -/
structure CopiesPatterns (src : Source) (model : Model) (c : SvelteComponent) : Prop where
  script : ∃ found, found.Perm (scriptPatterns c.script) ∧
    Gathered ((boundPatterns model).map (PatternSource.copied src)) found (scriptLeftovers c.script)
  markup : Gathered ((renderedPatterns model).map (PatternSource.copied src))
    (markupPatterns c.template) (markupLeftovers c.template)

/-- **Patterns are copied.** The pattern of a derived value or a consumed context, that of the items
of a list and the parameters of markup that is handed around stand in the Svelte component as they do
in the source. This is the converted pattern, provided that nothing in the pattern is converted. -/
theorem patterns_copied {reports reports' : List Report} {c : SvelteComponent}
    (h : toSvelte src model indent reports = .ok c reports') :
    CopiesPatterns src model c ∧
      ∀ p ∈ boundPatterns model ++ renderedPatterns model,
        (∀ n ∈ p.node?, Node.WellPlaced src n ∧ Untouched src model n) →
          p.converted? src model = some (p.copied src) := by
  obtain ⟨l⟩ := exists_layout h
  refine ⟨⟨l.exists_gathered, shows_template h⟩, fun p _ hp => ?_⟩
  exact PatternSource.converted_eq_copied hp

section Sample

open Node

/-- A component with a list of items that have a default. -/
def defaultItemModule (text : String) : Module :=
  appModule text [] 15
    [plain "lexical_declaration" 17 47 [plain "variable_declarator" 23 46
      [plain "array_pattern" 23 32 [plain "identifier" 24 25 [], plain "identifier" 27 31 []]
        (some "name"),
       plain "call_expression" 35 46
        [plain "identifier" 35 43 [] (some "function"),
         plain "arguments" 43 46 [plain "number" 44 45 []] (some "arguments")] (some "value")]],
     plain "return_statement" 48 85 [plain "call_expression" 55 84
      [plain "member_expression" 55 60
        [plain "identifier" 55 56 [] (some "object"),
         plain "property_identifier" 57 60 [] (some "property")] (some "function"),
       plain "arguments" 60 84 [plain "arrow_function" 61 83
        [plain "formal_parameters" 61 75 [plain "object_pattern" 62 74
          [plain "object_assignment_pattern" 64 72
            [plain "shorthand_property_identifier_pattern" 64 65 [] (some "left"),
             plain "identifier" 68 72 [] (some "right")]]] (some "parameters"),
         emptyElement 79 (some "body")]] (some "arguments")]]]

/-- The default is a plain name. -/
def plainItemModule : Module :=
  defaultItemModule
    "function App() \x7b const [x, setX] = useState(1); return x.map((\x7b f = done \x7d) => <b/>); \x7d"

/-- The pattern is the same, copied or converted. -/
theorem patterns_copied_of_name : ∃ model reports c reports',
    analyze plainItemModule {} [] = .ok model reports ∧
    toSvelte plainItemModule.source model "  " reports = .ok c reports' ∧
    markupPatterns c.template = ["\x7b f = done \x7d"] ∧
    (∀ p ∈ boundPatterns model ++ renderedPatterns model,
      ∀ n ∈ p.node?, WellPlaced plainItemModule.source n ∧
        Untouched plainItemModule.source model n) ∧
    CopiesPatterns plainItemModule.source model c ∧
    ∀ p ∈ boundPatterns model ++ renderedPatterns model,
      p.converted? plainItemModule.source model = some (p.copied plainItemModule.source) := by
  have test : endsIn (analyze plainItemModule {}) [] (fun model reports =>
      endsIn (toSvelte plainItemModule.source model "  ") reports (fun c _ =>
        markupPatterns c.template == ["\x7b f = done \x7d"] &&
          decide (∀ p ∈ boundPatterns model ++ renderedPatterns model,
            ∀ n ∈ p.node?, WellPlaced plainItemModule.source n ∧
              Untouched plainItemModule.source model n))) = true := by
    decide +kernel
  obtain ⟨model, reports, hmodel, hchecked⟩ := exists_ok_of_endsIn test
  obtain ⟨c, reports', hrun, hchecked⟩ := exists_ok_of_endsIn hchecked
  obtain ⟨htexts, huntouched⟩ := Bool.and_eq_true_iff.1 hchecked
  have huntouched := of_decide_eq_true huntouched
  obtain ⟨hcopies, hsame⟩ := patterns_copied hrun
  exact ⟨model, reports, c, reports', hmodel, hrun, eq_of_beq htexts, huntouched, hcopies,
    fun p hp => hsame p hp (huntouched p hp)⟩

/-- The default is a setter. -/
def setterItemModule : Module :=
  defaultItemModule
    "function App() \x7b const [x, setX] = useState(1); return x.map((\x7b f = setX \x7d) => <b/>); \x7d"

/-- The pattern keeps the setter, which its conversion replaces. -/
theorem pattern_keeps_setter : ∃ model reports c reports',
    analyze setterItemModule {} [] = .ok model reports ∧
    toSvelte setterItemModule.source model "  " reports = .ok c reports' ∧
    markupPatterns c.template = ["\x7b f = setX \x7d"] ∧
    (renderedPatterns model).map (PatternSource.converted? setterItemModule.source model) =
      [some "\x7b f = (value) => (x = value) \x7d"] := by
  have test : endsIn (analyze setterItemModule {}) [] (fun model reports =>
      endsIn (toSvelte setterItemModule.source model "  ") reports (fun c _ =>
        markupPatterns c.template == ["\x7b f = setX \x7d"] &&
          (renderedPatterns model).map (PatternSource.converted? setterItemModule.source model) ==
            [some "\x7b f = (value) => (x = value) \x7d"])) = true := by
    decide +kernel
  obtain ⟨model, reports, hmodel, hchecked⟩ := exists_ok_of_endsIn test
  obtain ⟨c, reports', hrun, hchecked⟩ := exists_ok_of_endsIn hchecked
  obtain ⟨htexts, hconverted⟩ := Bool.and_eq_true_iff.1 hchecked
  exact ⟨model, reports, c, reports', hmodel, hrun, eq_of_beq htexts, eq_of_beq hconverted⟩

end Sample

end Sveltify.Assembly
