import Sveltify.Proofs.Analysis.Reading
import Sveltify.Proofs.Render.Sites

namespace Sveltify.Render

open Text Component Analysis Node List

/-!
# What building finds

While render trees are built, elements that are bound to refs, providers of contexts and the rules
of `style` elements are written down. Every step appends some findings; all that is known about a
collection is said about the findings.

* `nodeElements`: the elements in a render tree;
* `Finding`, `Finding.record`: what is found, and what is written down of it;
* `Finds Q x`: the step `x` writes down some findings, and these have the property `Q`;
* `finds_buildElement`, `finds_buildProvider`, `finds_buildStyle`: the findings of one element.
-/

/-! ### Elements in render trees -/

mutual

/-- The elements in a piece of a render tree, at any depth. -/
def nodeElements : RenderNode → List ElementHead
  | .element h children => h :: nodesElements children
  | .component _ slots => slotsElements slots
  | .conditional _ consequent alternate => nodeElements consequent ++ optionalElements alternate
  | .list _ body => nodeElements body
  | .fragment children => nodesElements children
  | _ => []

/-- The elements in several pieces. -/
def nodesElements : List RenderNode → List ElementHead
  | [] => []
  | n :: rest => nodeElements n ++ nodesElements rest

/-- The elements in an optional piece. -/
def optionalElements : Option RenderNode → List ElementHead
  | none => []
  | some n => nodeElements n

/-- The elements in the markup handed to a component instance. -/
def slotsElements : List SlotContent → List ElementHead
  | [] => []
  | .mk _ _ body :: rest => nodeElements body ++ slotsElements rest

end

@[simp] theorem optionalElements_none : optionalElements none = [] := rfl

@[simp] theorem optionalElements_some (n : RenderNode) :
    optionalElements (some n) = nodeElements n := rfl

@[simp] theorem nodesElements_nil : nodesElements [] = [] := rfl

@[simp] theorem nodesElements_cons (n : RenderNode) (rest : List RenderNode) :
    nodesElements (n :: rest) = nodeElements n ++ nodesElements rest := rfl

@[simp] theorem slotsElements_nil : slotsElements [] = [] := rfl

@[simp] theorem slotsElements_cons (name : String) (parameters : Option Node) (body : RenderNode)
    (rest : List SlotContent) :
    slotsElements (.mk name parameters body :: rest) = nodeElements body ++ slotsElements rest :=
  rfl

/-- A missing node counts like an empty one. -/
@[simp] theorem nodeElements_getD_nothing (r : Option RenderNode) :
    nodeElements (r.getD .nothing) = optionalElements r := by
  cases r <;> rfl

/-- The elements of nodes, one node after another. -/
theorem nodesElements_eq_flatMap (ns : List RenderNode) :
    nodesElements ns = ns.flatMap nodeElements := by
  induction ns with
  | nil => rfl
  | cons n ns ih => rw [nodesElements_cons, ih, flatMap_cons]

@[simp] theorem nodesElements_append (ms ns : List RenderNode) :
    nodesElements (ms ++ ns) = nodesElements ms ++ nodesElements ns := by
  simp only [nodesElements_eq_flatMap, flatMap_append]

@[simp] theorem nodesElements_toList (r : Option RenderNode) :
    nodesElements r.toList = optionalElements r := by
  cases r <;> simp

@[simp] theorem slotsElements_append (ss ts : List SlotContent) :
    slotsElements (ss ++ ts) = slotsElements ss ++ slotsElements ts := by
  induction ss with
  | nil => rfl
  | cons s ss ih =>
    obtain ⟨name, parameters, body⟩ := s
    rw [cons_append, slotsElements_cons, slotsElements_cons, ih, append_assoc]

/-! ### Findings -/

/-- What building finds. -/
inductive Finding where
  | element (h : ElementHead)
  | provider (use : ContextUse)
  | style (n : Node)

namespace Finding

/-- The node that a finding is about. -/
def node : Finding → Node
  | .element h => h.node
  | .provider use => use.node
  | .style n => n

/-- Is the finding a provider that stands under no condition? -/
def isPlain : Finding → Bool
  | .provider use => !use.isNested
  | _ => false

/-- The element that is found. -/
def element? : Finding → Option ElementHead
  | .element h => some h
  | _ => none

/-- The provider that is found. -/
def provider? : Finding → Option ContextUse
  | .provider use => some use
  | _ => none

/-- The `style` element that is found. -/
def style? : Finding → Option Node
  | .style n => some n
  | _ => none

@[simp] theorem element?_eq_some {f : Finding} {e : ElementHead} :
    f.element? = some e ↔ f = .element e := by
  cases f <;> simp [element?]

@[simp] theorem provider?_eq_some {f : Finding} {use : ContextUse} :
    f.provider? = some use ↔ f = .provider use := by
  cases f <;> simp [provider?]

@[simp] theorem style?_eq_some {f : Finding} {n : Node} : f.style? = some n ↔ f = .style n := by
  cases f <;> simp [style?]

variable {fs : List Finding}

/-- The elements among the findings. -/
theorem mem_elements {e : ElementHead} : e ∈ fs.filterMap element? ↔ .element e ∈ fs := by
  simp [mem_filterMap]

/-- The providers among the findings. -/
theorem mem_providers {use : ContextUse} : use ∈ fs.filterMap provider? ↔ .provider use ∈ fs := by
  simp [mem_filterMap]

/-- The styles among the findings. -/
theorem mem_styles {n : Node} : n ∈ fs.filterMap style? ↔ .style n ∈ fs := by
  simp [mem_filterMap]

end Finding

variable (src : Source) (names : Names)

/-- The use of a context is one that provides a value. It binds no names. -/
def IsProvision (use : ContextUse) : Prop := use.direction = .provide ∧ use.binding = none

/-- The warning that a provider stands under a condition. -/
def hoistedReport (use : ContextUse) : Report :=
  reportOn src .warning Code.contextProviderHoisted
    s!"{use.key} provider is rendered conditionally; setContext runs once during component initialisation"
    use.node s!"{use.key}.Provider"

/-- The rules of a `style` element that are kept. -/
def styleRules? (n : Node) : Option String :=
  match isGlobalStyle src n, styleParts src n.children with
  | .ok isGlobal, .ok (some parts) =>
    let css := strip ("\n".intercalate (parts.map (stripOf (· == '\n'))))
    if css.isEmpty then none
    else some (if isGlobal then ":global \x7b\n" ++ css ++ "\n\x7d" else css)
  | _, _ => none

/-- What is written down of findings. -/
structure Collected where
  refTargets : Table Nat
  providers : List ContextUse
  styles : List String
  reports : List Report

/-- What has been written down so far. -/
def Progress.collected (p : Progress) : Collected where
  refTargets := p.refTargets
  providers := p.providers
  styles := p.styles
  reports := p.reports.filter isTracked

/-- What is written down of a finding: the first element of a ref, a provider with a warning if it
stands under a condition, and the rules of a `style` element. -/
def Finding.record (c : Collected) : Finding → Collected
  | .element h =>
    match h.ref with
    | some ref => { c with refTargets := c.refTargets.insertNew ref h.id }
    | none => c
  | .provider use =>
    { c with
      providers := c.providers ++ [use]
      reports := c.reports ++ if use.isNested then [hoistedReport src use] else [] }
  | .style n => { c with styles := c.styles ++ (styleRules? src n).toList }

/-- A style is recorded if it has rules. -/
theorem Finding.record_style (c : Collected) (n : Node) :
    record src c (.style n) = { c with styles := c.styles ++ (styleRules? src n).toList } := rfl

section Record

variable (fs : List Finding) (c : Collected)

/-- Providers are recorded in order. -/
theorem providers_foldl_record :
    (fs.foldl (Finding.record src) c).providers
      = c.providers ++ fs.filterMap Finding.provider? := by
  induction fs generalizing c with
  | nil => simp
  | cons f fs ih =>
    rw [foldl_cons, ih]
    cases f with
    | element h =>
      cases href : h.ref <;> simp [filterMap_cons, Finding.record, Finding.provider?, href]
    | provider use => simp [Finding.record, Finding.provider?]
    | style n => simp [filterMap_cons, Finding.record, Finding.provider?]

/-- Styles are recorded in order. -/
theorem styles_foldl_record :
    (fs.foldl (Finding.record src) c).styles =
      c.styles ++ (fs.filterMap Finding.style?).filterMap (styleRules? src) := by
  induction fs generalizing c with
  | nil => simp
  | cons f fs ih =>
    rw [foldl_cons, ih]
    cases f with
    | element h =>
      cases href : h.ref <;> simp [filterMap_cons, Finding.record, Finding.style?, href]
    | provider use => simp [filterMap_cons, Finding.record, Finding.style?]
    | style n =>
      cases hrules : styleRules? src n <;> simp [Finding.record, Finding.style?, hrules]

/-- Each nested provider is reported. -/
theorem reports_foldl_record :
    (fs.foldl (Finding.record src) c).reports = c.reports ++
      ((fs.filterMap Finding.provider?).filter (·.isNested)).map (hoistedReport src) := by
  induction fs generalizing c with
  | nil => simp
  | cons f fs ih =>
    rw [foldl_cons, ih]
    cases f with
    | element h =>
      cases href : h.ref <;> simp [filterMap_cons, Finding.record, Finding.provider?, href]
    | provider use =>
      cases hnested : use.isNested <;> simp [Finding.record, Finding.provider?, hnested]
    | style n => simp [filterMap_cons, Finding.record, Finding.provider?]

/-- A ref is bound to the first element that is found with it. -/
theorem get?_foldl_record (ref : String) :
    (fs.foldl (Finding.record src) c).refTargets.get? ref = (c.refTargets.get? ref).or
      (((fs.filterMap Finding.element?).find? (·.ref == some ref)).map (·.id)) := by
  induction fs generalizing c with
  | nil => simp
  | cons f fs ih =>
    rw [foldl_cons, ih]
    cases f with
    | provider use => rfl
    | style n => rfl
    | element h =>
      simp only [Finding.record, Finding.element?, filterMap_cons, find?_cons]
      cases href : h.ref with
      | none => rfl
      | some bound =>
        dsimp only
        -- The first element that is bound to a ref stays its target.
        rw [Table.get?_insertNew]
        by_cases hsame : ref = bound
        · subst hsame
          simp
        · have other : (some bound == some ref) = false := by simpa using Ne.symm hsame
          rw [if_neg hsame, other]

end Record

/-- The step leaves what has been written down. -/
abbrev Unrecorded (p q : Progress) : Prop := q.collected = p.collected

instance : Std.Refl Unrecorded := ⟨fun _ => rfl⟩

instance : IsTrans Progress Unrecorded := ⟨fun _ _ _ h h' => h'.trans h⟩

/-- The step writes down some findings, which have a property together with its result. -/
def Finds {α : Type} (Q : α → List Finding → Prop) (x : Build α) : Prop :=
  ∀ ⦃p a q⦄, x p = .ok a q →
    ∃ fs, q.collected = fs.foldl (Finding.record src) p.collected ∧ Q a fs

namespace Finds

variable {src} {α β : Type} {Q : α → List Finding → Prop} {x : Build α}

/-- Nothing is found. -/
theorem pure {a : α} (h : Q a []) : Finds src Q (Pure.pure a) := by
  intro p a' q hrun
  cases hrun
  exact ⟨[], rfl, h⟩

/-- A failure finds nothing. -/
theorem throw (e : Failure) : Finds src Q (throw e : Build α) := by
  intro p a q hrun
  cases hrun

/-- A weaker property of the findings. -/
theorem mono {R : α → List Finding → Prop} (hx : Finds src Q x) (h : ∀ a fs, Q a fs → R a fs) :
    Finds src R x := by
  intro p a q hrun
  obtain ⟨fs, hfs, hQ⟩ := hx hrun
  exact ⟨fs, hfs, h a fs hQ⟩

/-- The findings of two steps are those of the first and then those of the second. -/
theorem bind {R : β → List Finding → Prop} {f : α → Build β} (hx : Finds src Q x)
    (hf : ∀ a fs, Q a fs → Finds src (fun b fs' => R b (fs ++ fs')) (f a)) :
    Finds src R (x >>= f) := by
  intro p b q hrun
  obtain ⟨a, p₁, h₁, h₂⟩ := bind_ok_iff.1 hrun
  obtain ⟨fs, hfs, hQ⟩ := hx h₁
  obtain ⟨fs', hfs', hR⟩ := hf a fs hQ h₂
  exact ⟨fs ++ fs', by rw [hfs', hfs, foldl_append], hR⟩

/-- The same findings for another result. -/
theorem map {R : β → List Finding → Prop} {f : α → β} (hx : Finds src Q x)
    (h : ∀ a fs, Q a fs → R (f a) fs) : Finds src R (f <$> x) := by
  rw [map_eq_pure_bind]
  exact hx.bind fun a fs hQ => .pure (by simpa using h a fs hQ)

/-- A step after one that writes nothing down and of whose result something is known. -/
theorem after {P : α → Prop} {R : β → List Finding → Prop} {f : α → Build β}
    (hx : Leads Unrecorded x) (hy : Yields P x) (hf : ∀ a, P a → Finds src R (f a)) :
    Finds src R (x >>= f) := by
  intro p b q hrun
  obtain ⟨a, p₁, h₁, h₂⟩ := bind_ok_iff.1 hrun
  obtain ⟨fs, hfs, hR⟩ := hf a (hy h₁) h₂
  exact ⟨fs, by rw [hfs, hx h₁], hR⟩

/-- A step after one that writes nothing down. -/
theorem andThen {R : β → List Finding → Prop} {f : α → Build β} (hx : Leads Unrecorded x)
    (hf : ∀ a, Finds src R (f a)) : Finds src R (x >>= f) :=
  after (P := fun _ => True) hx (fun _ _ _ _ => trivial) fun a _ => hf a

/-- Steps for the entries of a list, whose findings are put together one after another. -/
theorem mapM {T : List β → List α → List Finding → Prop} {Q : β → α → List Finding → Prop}
    {f : β → Build α} (nil : T [] [] [])
    (cons : ∀ {b l a as fs fs'}, Q b a fs → T l as fs' → T (b :: l) (a :: as) (fs ++ fs'))
    (hf : ∀ b, Finds src (Q b) (f b)) (l : List β) : Finds src (T l) (l.mapM f) := by
  induction l with
  | nil => exact .pure nil
  | cons b l ih =>
    rw [mapM_cons]
    refine (hf b).bind fun a fs first => ih.bind fun as fs' rest => .pure ?_
    simpa using cons first rest

end Finds

/-! ### Steps that write nothing down -/

section Unrecorded

variable {src names}

/-- A fresh number is not recorded. -/
theorem unrecorded_freshId : Leads Unrecorded freshId := by
  intro p a q hrun
  cases hrun
  rfl

/-- Other reports are not recorded. -/
theorem unrecorded_reportAt {severity : Severity} {code message construct : String} {n : Node}
    (h : (code == Code.contextProviderHoisted || code == Code.unresolvedReference) = false) :
    Leads Unrecorded (reportAt src severity code message n construct) := by
  unfold reportAt
  refine Leads.modify fun p => ?_
  simp [Unrecorded, Progress.collected, isTracked, h]

/-- Side steps are not recorded. -/
theorem unrecorded_sideSteps : SideSteps src (fun x => Leads Unrecorded x) where
  pure := .pure
  throw := .throw
  bind := .bind
  slot _ _ := .modify fun _ => rfl
  fault _ _ _ := unrecorded_reportAt (by decide)

end Unrecorded

/-! ### The findings of one element -/

/-- The ref that an attribute binds an element to, by name. -/
def boundRef? (attr : Node) : Option String :=
  if attr.firstNamed?.map src.text == some "ref" then
    (((valueExpression? attr).bind bare?).filter (·.kind == "identifier")).map src.text
  else none

/-- The refs that an element is bound to in the source. -/
def boundRefs (n : Node) : List String := (attributesOf n).filterMap (boundRef? src)

variable {src names}

/-- The ref and the text content of an element come from its attributes. -/
structure PartsOf (src : Source) (names : Names) (attributes : List Node) (parts : TagParts) :
    Prop where
  ref : ∀ r, parts.ref = some r → r ∈ names.refs ∧ r ∈ attributes.filterMap (boundRef? src)
  html : parts.html.isSome = true → attributes.any (givesHtml src) = true

/-- One attribute more. -/
theorem PartsOf.snoc {attributes : List Node} {parts parts' : TagParts}
    (h : PartsOf src names attributes parts) (attr : Node)
    (href : parts'.ref = parts.ref ∨
      ∃ r, parts'.ref = some r ∧ r ∈ names.refs ∧ boundRef? src attr = some r)
    (hhtml : parts'.html = parts.html ∨ parts'.html = none ∨ givesHtml src attr = true) :
    PartsOf src names (attributes ++ [attr]) parts' where
  ref r hr := by
    rcases href with hold | ⟨r', hnew, hmem, hbound⟩
    · obtain ⟨hmem, hbound⟩ := h.ref r (hold ▸ hr)
      exact ⟨hmem, by simp [hbound]⟩
    · obtain rfl : r' = r := by simpa [hnew] using hr
      exact ⟨hmem, by simp [hbound]⟩
  html hsome := by
    rcases hhtml with hold | hnone | hgives
    · have := h.html (hold ▸ hsome)
      simp [this]
    · simp [hnone] at hsome
    · simp [hgives]

/-- An attribute adds to the parts that it names. -/
theorem partsOf_addAttribute {attributes : List Node} {parts : TagParts}
    (h : PartsOf src names attributes parts) (attr : Node) :
    Yields (PartsOf src names (attributes ++ [attr])) (addAttribute src names parts attr) := by
  refine (yields_addAttribute src names parts attr).mono fun parts' added => ?_
  cases added with
  | @ref value target named hvalue htarget hknown =>
    simp only [Bool.and_eq_true, contains_iff_mem] at hknown
    refine h.snoc attr (.inr ⟨src.text target, rfl, hknown.2, ?_⟩) (.inl rfl)
    simp [boundRef?, named.2, hvalue, htarget, Option.filter, hknown.1]
  | @html value html named hvalue hhtml =>
    refine h.snoc attr (.inl rfl) ?_
    cases html with
    | none => exact .inr (.inl rfl)
    | some html =>
      refine .inr (.inr ?_)
      simp [givesHtml, named.2, hvalue, hhtml, Except.toOption]
  -- The others leave the ref and the text content as they are.
  | spread | key | refExpression | event | plain => exact h.snoc attr (.inl rfl) (.inl rfl)

/-- All attributes are added in turn. -/
theorem partsOf_addAttributes (attributes : List Node) :
    Yields (PartsOf src names attributes) (attributes.foldlM (addAttribute src names) {}) := by
  have start : PartsOf src names [] {} := ⟨by simp, by simp⟩
  exact Yields.foldlM (I := PartsOf src names) (fun done parts attr h => partsOf_addAttribute h attr)
    attributes start

/-- What an element shows: its content, unless this is given as text. -/
def shownContent (html : Option Node) (children : List RenderNode) : List RenderNode :=
  match html with
  | some html => [.rawHtml html]
  | none => children

/-- An element is found with the refs that it may have, and it shows its content unless an
attribute gives it as text. -/
theorem finds_buildElement (n : Node) (tag : String) (children : List RenderNode) :
    Finds src (fun r fs => ∃ h shown, r = .element h shown ∧ fs = [.element h] ∧ h.node = n ∧
        (∀ ref, h.ref = some ref → ref ∈ names.refs ∧ ref ∈ boundRefs src n) ∧
        (shown = children ∨
          nodesElements shown = [] ∧ (attributesOf n).any (givesHtml src) = true))
      (buildElement src names n tag children) := by
  refine .andThen unrecorded_freshId fun id => ?_
  refine .after (unrecorded_sideSteps.ofAddAttributes names _ _) (partsOf_addAttributes _)
    fun parts hparts => ?_
  let head : ElementHead :=
    { tag, node := n, id, attributes := parts.attributes, events := parts.events, ref := parts.ref,
      refExpression := parts.refExpression, html := parts.html }
  intro p r q hrun
  -- The element is noted for its ref, if it has one, and for nothing else.
  have outcome : q.collected = Finding.record src p.collected (.element head) ∧
      r = .element head (shownContent parts.html children) := by
    dsimp only at hrun
    unfold Finding.record
    cases href : parts.ref
    all_goals
      rw [href] at hrun
      cases hrun
      refine ⟨by simp [head, href, Progress.collected], ?_⟩
      cases hhtml : parts.html <;> simp [head, href, hhtml, shownContent]
  refine ⟨[.element head], outcome.1, head, _, outcome.2, rfl, rfl, hparts.ref, ?_⟩
  cases hhtml : parts.html with
  | none => exact .inl rfl
  | some html => exact .inr ⟨rfl, hparts.html (by simp [hhtml])⟩

/-- A provider is found with whether it stands under a condition, and shows its content. -/
theorem finds_buildProvider (nested : Bool) (n : Node) (key : String)
    (children : List RenderNode) :
    Finds src (fun r fs => r = .fragment children ∧ ∃ use, fs = [.provider use] ∧ use.key = key ∧
        use.node = n ∧ IsProvision use ∧ use.isNested = nested)
      (buildProvider src nested n key children) := by
  refine .andThen (.lift _) fun value => ?_
  let use : ContextUse := { key, direction := .provide, node := n, value, isNested := nested }
  intro p r q hrun
  refine ⟨[.provider use], ?_, ?_, use, rfl, rfl, rfl, ⟨rfl, rfl⟩, rfl⟩
  · cases nested with
    | false =>
      cases hrun
      simp [Progress.collected, Finding.record, use]
    | true =>
      cases hrun
      simp [Progress.collected, Finding.record, use, isTracked, hoistedReport, reportOn]
  · cases nested <;> cases hrun <;> rfl

/-- Of a `style` element nothing is shown. -/
theorem finds_buildStyle (n : Node) :
    Finds src (fun r fs => optionalElements r = [] ∧ fs = [.style n]) (buildStyle src n) := by
  intro p r q hrun
  obtain ⟨isGlobal, p₁, hfirst, hrun₁⟩ := bind_ok_iff.1 hrun
  obtain ⟨parts, p₂, hsecond, hrun₂⟩ := bind_ok_iff.1 hrun₁
  clear hrun hrun₁
  obtain ⟨hparts, rfl⟩ := lift_ok_iff.1 hsecond
  obtain ⟨hglobal, rfl⟩ := lift_ok_iff.1 hfirst
  -- Rules are written down if there are any.
  have outcome : q.collected = Finding.record src p₂.collected (.style n) ∧
      optionalElements r = [] := by
    rw [Finding.record_style, styleRules?, hglobal, hparts]
    cases parts with
    | none =>
      cases hrun₂
      exact ⟨by simp, rfl⟩
    | some parts =>
      dsimp only at hrun₂ ⊢
      by_cases hcss : (strip ("\n".intercalate (parts.map (stripOf (· == '\n'))))).isEmpty = true
      · rw [if_neg (by simp [hcss])] at hrun₂
        cases hrun₂
        exact ⟨by simp [hcss], rfl⟩
      · rw [if_pos (by simp [hcss])] at hrun₂
        cases hrun₂
        exact ⟨by simp [Progress.collected, hcss], rfl⟩
  exact ⟨[.style n], outcome.1, outcome.2, rfl⟩

end Sveltify.Render
