import Sveltify.Proofs.Render.Findings

namespace Sveltify.Render

open Text Component Analysis Node List

/-!
# The account of what building finds

* `Account`: where findings come from, and which of the elements found are seen in the result;
* `Accounts`: the step has findings with such an account;
* `accounts_buildExpression`: every expression has one. Nothing is found twice but in content that
  is built twice, the providers that stand under no condition are those behind tags only, and an
  element that is not seen stands in content that is left out.
-/

variable (src : Source) (names : Names)

/-- The finding is one that its node can give. -/
def Finding.IsSound : Finding → Prop
  | .element h => ∀ ref, h.ref = some ref → ref ∈ names.refs ∧ ref ∈ boundRefs src h.node
  | .provider use => IsProvision use ∧ sortOf src names use.node = .provider use.key
  | .style n => sortOf src names n = .style

/-- Where findings come from: what is built stands in `roots`, the providers under no condition are
those in `behindTags`, and the elements found are those in `held` or stand in `lost`. -/
structure Account (roots behindTags lost : List Node) (held : List ElementHead)
    (fs : List Finding) : Prop where
  places : fs.map Finding.node <+~ roots.flatMap (sites src names)
  plain : (fs.filter Finding.isPlain).map Finding.node = behindTags
  kept : ∀ h ∈ held, .element h ∈ fs
  left : ∀ h, .element h ∈ fs → h ∈ held ∨ h.node ∈ lost
  sound : ∀ f ∈ fs, f.IsSound src names

variable {src names}

namespace Account

variable {roots roots' behindTags behindTags' lost lost' : List Node}
  {held held' : List ElementHead} {fs fs' : List Finding}

/-- Nothing is built, so nothing is found. -/
theorem nil (roots lost : List Node) : Account src names roots [] lost [] [] where
  places := nil_subperm
  plain := rfl
  kept _ h := by cases h
  left _ h := by cases h
  sound _ h := by cases h

/-- Two parts side by side. -/
theorem append (h : Account src names roots behindTags lost held fs)
    (h' : Account src names roots' behindTags' lost' held' fs') :
    Account src names (roots ++ roots') (behindTags ++ behindTags') (lost ++ lost')
      (held ++ held') (fs ++ fs') where
  places := by
    rw [map_append, flatMap_append]
    exact h.places.append h'.places
  plain := by rw [filter_append, map_append, h.plain, h'.plain]
  kept e he := by
    rcases mem_append.1 he with he | he
    · exact mem_append_left _ (h.kept e he)
    · exact mem_append_right _ (h'.kept e he)
  left e he := by
    rcases mem_append.1 he with he | he
    · exact (h.left e he).imp (mem_append_left _) (mem_append_left _)
    · exact (h'.left e he).imp (mem_append_right _) (mem_append_right _)
  sound f hf := by
    rcases mem_append.1 hf with hf | hf
    · exact h.sound f hf
    · exact h'.sound f hf

/-- More to build from, and more that is given up. -/
theorem mono (h : Account src names roots behindTags lost held fs)
    (hroots : roots.flatMap (sites src names) <+~ roots'.flatMap (sites src names))
    (hlost : lost ⊆ lost') : Account src names roots' behindTags lost' held fs where
  places := h.places.trans hroots
  plain := h.plain
  kept := h.kept
  left e he := (h.left e he).imp_right fun hl => hlost hl
  sound := h.sound

/-- The account of parts that stand apart in a tree is one of the tree. -/
theorem of_apart {n : Node} (h : Account src names roots behindTags lost held fs)
    (hroots : Apart roots [n]) (hlost : lost ⊆ dropped src names n) :
    Account src names [n] behindTags (dropped src names n) held fs :=
  h.mono (hroots _ (gathers_sites src names)) hlost

/-- Only which elements are held matters, not their order. -/
theorem reorder (h : Account src names roots behindTags lost held fs)
    (hheld : ∀ e, e ∈ held' ↔ e ∈ held) : Account src names roots behindTags lost held' fs where
  places := h.places
  plain := h.plain
  kept e he := h.kept e ((hheld e).1 he)
  left e he := (h.left e he).imp_left (hheld e).2
  sound := h.sound

/-- Pieces that are not shown are left out. -/
theorem forget (h : Account src names roots behindTags lost held fs)
    (hlost : ∀ f ∈ fs, f.node ∈ lost') : Account src names roots behindTags lost' [] fs where
  places := h.places
  plain := h.plain
  kept _ h := by cases h
  left e he := .inr (hlost _ he)
  sound := h.sound

/-- What is found is a node of a tree that is built. -/
theorem mem_preorder (h : Account src names roots behindTags lost held fs) {f : Finding}
    (hf : f ∈ fs) : ∃ r ∈ roots, f.node ∈ r.preorder := by
  obtain ⟨r, hr, hmem⟩ := mem_flatMap.1 (h.places.subset (mem_map_of_mem hf))
  exact ⟨r, hr, mem_preorder_of_mem_sites hmem⟩

/-- Where there is nothing to build from, nothing is found. -/
theorem eq_nil (h : Account src names [] behindTags lost held fs) : fs = [] := by
  simpa using h.places.length_le

end Account

variable (src names)

/-- The step has findings with an account, in which the elements of its result are held. -/
def Accounts {α : Type} (roots behindTags lost : List Node) (held : α → List ElementHead)
    (x : Build α) : Prop :=
  Finds src (fun a fs => Account src names roots behindTags lost (held a) fs) x

/-- What is shown of an expression. -/
abbrev AccountsExpression (nested : Bool) (n : Node) : Prop :=
  Accounts src names (expressionSite? n).toList (if nested then [] else plainIn src names n)
    (dropped src names n) optionalElements (buildExpression src names nested n)

variable {src names}

namespace Accounts

variable {α : Type} {roots behindTags lost : List Node} {held : α → List ElementHead} {x : Build α}

/-- A value without elements. -/
theorem pure {a : α} (ha : held a = []) (hplain : behindTags = []) :
    Accounts src names roots behindTags lost held (Pure.pure a) := by
  subst hplain
  exact Finds.pure (ha ▸ Account.nil _ _)

/-- A failure owes no account. -/
theorem throw (e : Failure) : Accounts src names roots behindTags lost held (throw e) :=
  Finds.throw e

/-- The same step with another account. -/
theorem imp {roots' behindTags' lost' : List Node} {held' : α → List ElementHead}
    (h : Accounts src names roots behindTags lost held x)
    (himp : ∀ a fs, Account src names roots behindTags lost (held a) fs →
      Account src names roots' behindTags' lost' (held' a) fs) :
    Accounts src names roots' behindTags' lost' held' x :=
  Finds.mono h himp

end Accounts

/-! ### Expressions -/

/-- What is shown of an expression without wrappers. -/
abbrev AccountsBare (src : Source) (names : Names) (nested : Bool) (n : Node) : Prop :=
  Accounts src names (if n.isFunction then [] else [n])
    (if !nested && n.isJsx then plainProviders src names n else []) (dropped src names n)
    optionalElements (buildBare src names nested n)

/-- Parentheses account for what stands in them. -/
theorem accounts_of_bare {nested : Bool} {n m : Node} (h : n.bare? = some m)
    (hm : AccountsBare src names nested m) : AccountsExpression src names nested n := by
  unfold AccountsExpression
  rw [buildExpression_of_bare h]
  have roots : (expressionSite? n).toList = if m.isFunction then [] else [m] := by
    cases hf : m.isFunction <;> simp [expressionSite?, h, hf]
  have plain : (if nested then [] else plainIn src names n)
      = if !nested && m.isJsx then plainProviders src names m else [] := by
    cases nested <;> simp [plainIn, h]
  rw [roots, plain]
  exact hm.imp fun r fs account =>
    account.mono (Subperm.refl _) (dropped_subset src names (bare_mem_preorder h))

/-- The account of an optional part. -/
theorem accounts_buildOptional {nested : Bool} {part : Option Node}
    (h : ∀ c, part = some c → AccountsExpression src names nested c) :
    Accounts src names (part.toList.flatMap fun c => (expressionSite? c).toList)
      (if nested then [] else part.toList.flatMap (plainIn src names))
      (part.toList.flatMap (dropped src names)) optionalElements
      (buildOptional src names nested part) := by
  cases part with
  | none => exact .pure rfl (by simp)
  | some c => simpa [buildOptional] using h c rfl

/-- Optional parts of a tree that stand apart in it. -/
theorem apart_expressionSites {parts : List Node} {n : Node} (h : Apart parts [n]) :
    Apart (parts.flatMap fun c => (expressionSite? c).toList) [n] := by
  refine Apart.trans ?_ h
  have each : Apart (parts.flatMap fun c => (expressionSite? c).toList)
      (parts.flatMap fun c => [c]) := by
    refine Apart.flatMap fun c _ => ?_
    cases hsite : expressionSite? c with
    | none => exact Apart.nil _
    | some m => exact apart_expressionSite hsite
  simpa using each

/-- What parts drop is dropped by the whole. -/
theorem flatMap_dropped_subset {parts : List Node} {n : Node} (h : Apart parts [n]) :
    parts.flatMap (dropped src names) ⊆ dropped src names n := by
  intro x hx
  obtain ⟨c, hc, hx⟩ := mem_flatMap.1 hx
  obtain ⟨n', hn', hmem⟩ := h.mem_preorder hc
  obtain rfl := mem_singleton.1 hn'
  exact dropped_subset src names hmem hx

/-- A field is a part. -/
theorem apart_field (n : Node) (name : String) : Apart (n.field? name).toList [n] := by
  cases h : n.field? name with
  | none => exact Apart.nil _
  | some c => exact Apart.field h

/-- Two fields are parts that lie apart. -/
theorem apart_fields (n : Node) {first second : String} (hne : first ≠ second) :
    Apart ((n.field? first).toList ++ (n.field? second).toList) [n] := by
  cases h : n.field? first with
  | none => simpa using apart_field n second
  | some c =>
    cases h' : n.field? second with
    | none => simpa using Apart.field h
    | some d => exact Apart.fields hne h h'

/-- A conjunction accounts for its right-hand side. -/
theorem accounts_conjunction {nested : Bool} {n : Node} (hempty : isEmptyLiteral src n = false)
    (hand : isConjunction n = true)
    (right : ∀ c, n.field? "right" = some c → AccountsExpression src names true c) :
    AccountsBare src names nested n := by
  have hkind : n.kind = "binary_expression" := by simp_all [isConjunction]
  have notJsx : n.isJsx = false := by simp [isJsx, jsxKinds, hkind]
  have notFunction : n.isFunction = false := by simp [isFunction, functionKinds, hkind]
  unfold AccountsBare
  rw [buildBare_conjunction hempty hand, notJsx, notFunction]
  refine (accounts_buildOptional right).bind fun r fs account => .pure ?_
  have inside := account.of_apart (apart_expressionSites (apart_field n "right"))
    (flatMap_dropped_subset (apart_field n "right"))
  have shown : optionalElements (r.map (.conditional (n.field? "left") · none))
      = optionalElements r := by
    cases r <;> simp [nodeElements]
  simpa [shown] using inside

/-- A ternary expression accounts for both branches. -/
theorem accounts_ternary {nested : Bool} {n : Node} (hempty : isEmptyLiteral src n = false)
    (hkind : n.kind = "ternary_expression")
    (consequence : ∀ c, n.field? "consequence" = some c → AccountsExpression src names true c)
    (alternative : ∀ c, n.field? "alternative" = some c → AccountsExpression src names true c) :
    AccountsBare src names nested n := by
  have notJsx : n.isJsx = false := by simp [isJsx, jsxKinds, hkind]
  have notFunction : n.isFunction = false := by simp [isFunction, functionKinds, hkind]
  unfold AccountsBare
  rw [buildBare_ternary hempty hkind, notJsx, notFunction]
  refine .andThen (unrecorded_sideSteps.ofAnyRendered names _) fun rendered => ?_
  cases rendered with
  | false => exact Accounts.pure rfl (by simp)
  | true =>
    refine (accounts_buildOptional consequence).bind fun r fs account => ?_
    refine (accounts_buildOptional alternative).bind fun r' fs' account' => .pure ?_
    -- The branches stand apart, so they may be counted together.
    have parts := apart_fields n (show "consequence" ≠ "alternative" by decide)
    have both := account.append account'
    rw [← flatMap_append, ← flatMap_append] at both
    have inside := both.of_apart (apart_expressionSites parts) (flatMap_dropped_subset parts)
    simpa [nodeElements] using inside

/-- What is shown of the expression that the callback of a list returns. -/
abbrev AccountsItems (src : Source) (names : Names) (n : Node) : Prop :=
  ∀ iterable callback declarations returned, mappedList? src n = some (iterable, callback) →
    callbackBody callback = some (declarations, some returned) →
    AccountsExpression src names true returned

/-- A list accounts for what its callback returns. -/
theorem accounts_buildMapped {n : Node} (items : AccountsItems src names n) :
    Accounts src names [n] [] (dropped src names n) optionalElements
      (buildMapped src names n (mappedList? src n)) := by
  cases mappedCase src names n with
  | leaf hbuild hleaf =>
    rw [hbuild]
    refine .pure ?_ rfl
    cases hleaf <;> rfl
  | @items _ _ _ returned _ _ hmapped hbody hbuild =>
    rw [hbuild]
    have inside : returned ∈ n.preorder :=
      preorder_trans (callbackBody_mem_preorder hbody) (mapCallback_mem_preorder hmapped)
    have part : Apart [returned] [n] := .of_mem_preorder inside
    refine .andThen (.lift _) fun key => ?_
    refine (items _ _ _ _ hmapped hbody).bind fun r fs account => .pure ?_
    have whole := account.of_apart (by simpa using apart_expressionSites part)
      (dropped_subset src names inside)
    simpa [nodeElements] using whole

/-- An inserted value holds no elements. -/
theorem accounts_buildValue (n : Node) (roots lost : List Node) :
    Accounts src names roots [] lost optionalElements (buildValue src names n) := by
  refine .after (unrecorded_sideSteps.ofSlotUse names n) (yields_slotUse n) fun slot hslot => ?_
  cases hslot with
  | slot name callee arguments isOptional => exact Accounts.pure rfl rfl
  | none =>
    dsimp only
    split <;> exact Accounts.pure rfl rfl

/-- A function is no list. -/
theorem mappedList_of_function {n : Node} (h : n.isFunction = true) : mappedList? src n = none := by
  unfold mappedList?
  split
  · rename_i hkind
    simp [isFunction, functionKinds, eq_of_beq hkind] at h
  · rfl

/-- Any other expression is a list or a value. -/
theorem accounts_other {nested : Bool} {n : Node} (hempty : isEmptyLiteral src n = false)
    (hjsx : n.isJsx = false) (hand : isConjunction n = false)
    (hternary : n.kind ≠ "ternary_expression") (items : AccountsItems src names n) :
    AccountsBare src names nested n := by
  unfold AccountsBare
  rw [buildBare_other src names hempty hjsx hand hternary, hjsx, Bool.and_false]
  refine .andThen (.lift _) fun isList => ?_
  cases isList with
  | false => exact accounts_buildValue n _ _
  | true =>
    cases hfunction : n.isFunction with
    | false => exact accounts_buildMapped items
    | true =>
      rw [mappedList_of_function hfunction]
      exact Accounts.pure rfl rfl

/-! ### JSX elements -/

/-- What is shown of a JSX element. -/
abbrev AccountsElement (src : Source) (names : Names) (nested : Bool) (n : Node) : Prop :=
  Accounts src names [n] (if nested then [] else plainProviders src names n) (dropped src names n)
    optionalElements (buildMarkup src names nested n)

/-- What is shown of the nodes between tags. -/
abbrev AccountsContent (src : Source) (names : Names) (nested : Bool) (cs : List Node) : Prop :=
  Accounts src names (contentSites cs)
    (if nested then [] else cs.flatMap (plainBehind src names)) (cs.flatMap (dropped src names))
    nodesElements (buildChildren src names nested cs)

/-- What is shown of the attributes of a component instance. -/
abbrev AccountsAttributes (src : Source) (names : Names) (attributes : List Node) : Prop :=
  Accounts src names attributes [] (attributes.flatMap (dropped src names))
    (fun made => slotsElements made.2) (buildInstanceAttributes src names attributes)

/-- What is shown of a value that is handed over. Only JSX and functions hand markup over. -/
abbrev AccountsPassed (src : Source) (names : Names) (value : Node) : Prop :=
  ∀ name, Finds src (fun slot fs =>
      Account src names (passedSite? value).toList [] (dropped src names value)
        (slotsElements slot.toList) fs ∧ (slot.isSome = true → (passedSite? value).isSome = true))
    (passedMarkup src names name value)

/-- The content of an element accounts for its children. -/
theorem accounts_buildContent {nested : Bool} {n : Node}
    (h : AccountsContent src names nested n.children) :
    Accounts src names (builtContent n) (if nested then [] else plainContent src names n)
      (n.children.flatMap (dropped src names)) nodesElements
      (buildContent src names nested n) := by
  unfold builtContent plainContent buildContent
  split
  · exact .pure rfl (by simp)
  · exact h

/-- Children that are built lie apart. -/
theorem apart_builtContent (n : Node) : Apart (builtContent n) n.children :=
  Apart.trans (.of_subperm (sublist_append_left _ _).subperm) (apart_parts n)

/-- What the children drop is dropped by the element. -/
theorem children_dropped_subset (n : Node) :
    n.children.flatMap (dropped src names) ⊆ dropped src names n :=
  flatMap_dropped_subset (.of_children (Subperm.refl _))

/-- The account of the content of an element is one of the element. -/
theorem Account.of_content {n : Node} {behindTags : List Node} {held : List ElementHead}
    {fs : List Finding}
    (h : Account src names (builtContent n) behindTags (n.children.flatMap (dropped src names)) held
      fs) :
    Account src names [n] behindTags (dropped src names n) held fs :=
  h.of_apart ((apart_builtContent n).trans (.of_children (Subperm.refl _)))
    (children_dropped_subset n)

/-- One more finding, at the element itself. -/
theorem Account.snoc {n : Node} {behindTags lost : List Node} {held : List ElementHead}
    {fs : List Finding} {f : Finding}
    (h : Account src names (builtContent n) behindTags lost held fs) (hnode : f.node = n)
    (hsound : f.IsSound src names) :
    Account src names [n] (behindTags ++ if f.isPlain then [n] else []) lost
      (f.element?.toList ++ held) (fs ++ [f]) where
  places := by
    -- The new finding stands at the node, the others in its content.
    rw [map_append, map_singleton, hnode, flatMap_singleton]
    exact perm_append_comm.subperm.trans (((subperm_cons n).2 h.places).trans
      (subperm_sites_of_children (apart_builtContent n)))
  plain := by
    rw [filter_append, map_append, h.plain, filter_singleton]
    cases f.isPlain <;> simp [hnode]
  kept e he := by
    rcases mem_append.1 he with he | he
    · cases f <;> simp_all [Finding.element?]
    · exact mem_append_left _ (h.kept e he)
  left e he := by
    rcases mem_append.1 he with he | he
    · exact (h.left e he).imp_left (mem_append_right _)
    · obtain rfl := mem_singleton.1 he
      exact .inl (by simp [Finding.element?])
  sound g hg := by
    rcases mem_append.1 hg with hg | hg
    · exact h.sound g hg
    · obtain rfl := mem_singleton.1 hg
      exact hsound

/-- Content that is left out is an account of the element without elements. -/
theorem Account.leaveOut {n : Node} {behindTags lost : List Node} {held : List ElementHead}
    {fs : List Finding} (h : Account src names (builtContent n) behindTags lost held fs)
    (hout : leftOut src names n = n.children) :
    Account src names (builtContent n) behindTags (dropped src names n) [] fs := by
  refine h.forget fun f hf => ?_
  obtain ⟨r, hr, hmem⟩ := h.mem_preorder hf
  obtain ⟨c, hc, hrc⟩ := (apart_builtContent n).mem_preorder hr
  exact mem_dropped_of_leftOut src names (hout ▸ hc) (preorder_trans hmem hrc)

section Tag

variable {nested : Bool} {n : Node} {children : List RenderNode} {fs : List Finding}

/-- What is known of the content of an element when the element is built. -/
abbrev ContentAccount (src : Source) (names : Names) (nested : Bool) (n : Node)
    (children : List RenderNode) (fs : List Finding) : Prop :=
  Account src names (builtContent n) (if nested then [] else plainContent src names n)
    (n.children.flatMap (dropped src names)) (nodesElements children) fs

/-- What is to be shown of an element whose content has findings already. -/
abbrev TagAccount (src : Source) (names : Names) (nested : Bool) (n : Node) (fs : List Finding)
    (r : Option RenderNode) (fs' : List Finding) : Prop :=
  Account src names [n] (if nested then [] else plainProviders src names n) (dropped src names n)
    (optionalElements r) (fs ++ fs')

/-- Only a provider adds itself. -/
theorem plain_of_not_provider (h : isProvider src names n = false) :
    plainProviders src names n = plainContent src names n := by
  simp [plainProviders_eq, h]

/-- A fragment is its content. -/
theorem tag_fragment (h : ContentAccount src names nested n children fs)
    (hsort : sortOf src names n = .fragment) :
    TagAccount src names nested n fs (some (.fragment children)) [] := by
  have plain : plainProviders src names n = plainContent src names n :=
    plain_of_not_provider (by simp [isProvider, hsort])
  simpa [TagAccount, plain, nodeElements] using h.of_content

/-- A provider is found after its content. -/
theorem tag_provider {key : String} {use : ContextUse}
    (h : ContentAccount src names nested n children fs)
    (hsort : sortOf src names n = .provider key) (hkey : use.key = key) (hnode : use.node = n)
    (hprovision : IsProvision use) (hnested : use.isNested = nested) :
    TagAccount src names nested n fs (some (.fragment children)) [.provider use] := by
  have sound : (Finding.provider use).IsSound src names :=
    ⟨hprovision, by rw [hnode, hkey, hsort]⟩
  have found := (h.mono (Subperm.refl _) (children_dropped_subset n)).snoc (f := .provider use)
    hnode sound
  have provider : isProvider src names n = true := by simp [isProvider, hsort]
  cases nested <;>
    simpa [TagAccount, plainProviders_eq, provider, nodeElements, Finding.isPlain, hnested,
      Finding.element?] using found

/-- A style is found, and its content is given up. -/
theorem tag_style {r : Option RenderNode} (h : ContentAccount src names nested n children fs)
    (hsort : sortOf src names n = .style) (hr : optionalElements r = []) :
    TagAccount src names nested n fs r [.style n] := by
  have plain : plainProviders src names n = plainContent src names n :=
    plain_of_not_provider (by simp [isProvider, hsort])
  have out := h.leaveOut (by simp [leftOut, hsort])
  have found := out.snoc (f := .style n) rfl hsort
  simpa [TagAccount, plain, hr, Finding.isPlain, Finding.element?] using found

/-- An element is found after its content, which markup given as a string replaces. -/
theorem tag_element {tag : String} {e : ElementHead} {shown : List RenderNode}
    (h : ContentAccount src names nested n children fs) (hsort : sortOf src names n = .element tag)
    (hnode : e.node = n)
    (href : ∀ ref, e.ref = some ref → ref ∈ names.refs ∧ ref ∈ boundRefs src n)
    (hshown : shown = children ∨
      nodesElements shown = [] ∧ (attributesOf n).any (givesHtml src) = true) :
    TagAccount src names nested n fs (some (.element e shown)) [.element e] := by
  have plain : plainProviders src names n = plainContent src names n :=
    plain_of_not_provider (by simp [isProvider, hsort])
  have content : Account src names (builtContent n)
      (if nested then [] else plainContent src names n) (dropped src names n)
      (nodesElements shown) fs := by
    rcases hshown with rfl | ⟨hnone, hhtml⟩
    · exact h.mono (Subperm.refl _) (children_dropped_subset n)
    · rw [hnone]
      exact h.leaveOut (by rw [leftOut, hsort, if_pos hhtml])
  have found := content.snoc (f := .element e) hnode (by rw [← hnode] at href; exact href)
  simpa [TagAccount, plain, nodeElements, Finding.isPlain, Finding.element?] using found

/-- Content beside which markup is handed over is left out. -/
theorem Account.leaveRepeated {behindTags lost : List Node} {held : List ElementHead} {e : Node}
    {name : String} (h : Account src names (builtContent n) behindTags lost held fs)
    (hsort : sortOf src names n = .component name) (honly : onlyChildExpression? src n = some e)
    (hpassed : (passedSite? e).isSome = true) :
    Account src names (builtContent n) behindTags (dropped src names n) [] fs := by
  refine h.forget fun f hf => ?_
  obtain ⟨v, hv⟩ := Option.isSome_iff_exists.1 hpassed
  obtain ⟨hbare, hkinds⟩ := Option.filter_eq_some_iff.1 hv
  cases hjsx : v.isJsx with
  | true =>
    have out : leftOut src names n = [e] := by
      simp [leftOut, repeated?, hsort, honly, hbare, hjsx]
    obtain ⟨r, hr, hmem⟩ := h.mem_preorder hf
    have bare := (Option.filter_eq_some_iff.1 (builtContent_of_only honly hr)).1
    exact mem_dropped_of_leftOut src names (c := e) (by simp [out])
      (preorder_trans hmem (bare_mem_preorder bare))
  | false =>
    -- A render function is not built as content, so nothing is found there.
    have hfunction : v.isFunction = true := by simpa [hjsx] using hkinds
    rw [builtContent_of_function honly hbare hfunction] at h
    rw [h.eq_nil] at hf
    cases hf

/-- A slot that is passed takes the place of the content. -/
theorem elements_instanceContent (passed : Option SlotContent) (children : List RenderNode) :
    slotsElements (instanceContent passed children) =
      slotsElements passed.toList ++ if passed.isSome then [] else nodesElements children := by
  unfold instanceContent
  split <;> simp_all [nodeElements]

/-- The attributes of an element stand in it. -/
theorem attributes_dropped_subset (n : Node) :
    (attributesOf n).flatMap (dropped src names) ⊆ dropped src names n := by
  have inside : Apart (attributesOf n) [n] :=
    (Apart.of_subperm (sublist_append_right _ _).subperm).trans
      ((apart_parts n).trans (.of_children (Subperm.refl _)))
  exact flatMap_dropped_subset inside

/-- A component has what its slots have. -/
theorem tag_component {name : String} {head : InstanceHead} {slots : List SlotContent}
    {passed : Option SlotContent} {fsA fsP : List Finding}
    (h : ContentAccount src names nested n children fs)
    (hsort : sortOf src names n = .component name)
    (attributes : Account src names (attributesOf n) []
      ((attributesOf n).flatMap (dropped src names)) (slotsElements slots) fsA)
    (handed : Account src names ((onlyChildExpression? src n).bind passedSite?).toList []
      ((onlyChildExpression? src n).toList.flatMap (dropped src names))
      (slotsElements passed.toList) fsP)
    (hpassed : passed.isSome = true →
      ((onlyChildExpression? src n).bind passedSite?).isSome = true) :
    TagAccount src names nested n fs
      (some (.component head (slots ++ instanceContent passed children))) (fsA ++ fsP) := by
  have plain : plainProviders src names n = plainContent src names n :=
    plain_of_not_provider (by simp [isProvider, hsort])
  have onlyDropped : (onlyChildExpression? src n).toList.flatMap (dropped src names)
      ⊆ dropped src names n := by
    cases honly : onlyChildExpression? src n with
    | none => simp
    | some e =>
      obtain ⟨only, hmem, -, hinner, -⟩ := onlyChildExpression_mem honly
      simpa using dropped_subset src names (preorder_trans (innerExpression_mem_preorder hinner)
        (child_mem_preorder (namedChildren_subset hmem) (mem_preorder_self n)))
  -- The pieces of the content are shown unless markup is handed over in their place.
  have content : Account src names (builtContent n)
      (if nested then [] else plainContent src names n) (dropped src names n)
      (if passed.isSome then [] else nodesElements children) fs := by
    cases hsome : passed.isSome with
    | false => exact h.mono (Subperm.refl _) (children_dropped_subset n)
    | true =>
      obtain ⟨v, hv⟩ := Option.isSome_iff_exists.1 (hpassed hsome)
      obtain ⟨e, honly, hsite⟩ := Option.bind_eq_some_iff.1 hv
      exact h.leaveRepeated hsort honly (by simp [hsite])
  have lost : dropped src names n ++ (attributesOf n).flatMap (dropped src names)
      ++ (onlyChildExpression? src n).toList.flatMap (dropped src names)
      ⊆ dropped src names n :=
    append_subset.2 ⟨append_subset.2 ⟨Subset.refl _, attributes_dropped_subset n⟩, onlyDropped⟩
  have all := ((content.append attributes).append handed).mono (by
    rw [flatMap_singleton]
    exact subperm_sites_of_component hsort) lost
  rw [append_nil, append_nil, append_assoc fs, ← plain] at all
  refine all.reorder fun x => ?_
  simp [nodeElements, elements_instanceContent, or_left_comm, or_comm]

end Tag

/-- A slot accounts for its body. -/
theorem finds_passedOptional {value : Option Node}
    (h : ∀ e, value = some e → AccountsPassed src names e) (name : String) :
    Finds src (fun slot fs =>
        Account src names (value.bind passedSite?).toList []
          (value.toList.flatMap (dropped src names)) (slotsElements slot.toList) fs ∧
        (slot.isSome = true → (value.bind passedSite?).isSome = true))
      (passedOptional src names name value) := by
  cases value with
  | none => exact .pure ⟨Account.nil _ _, by simp⟩
  | some e => simpa [passedOptional] using h e rfl name

/-- Every sort of tag accounts for its parts. -/
theorem accounts_tag {nested : Bool} {n : Node}
    (content : AccountsContent src names nested n.children)
    (attributes : AccountsAttributes src names (attributesOf n))
    (passed : ∀ e, onlyChildExpression? src n = some e → AccountsPassed src names e) :
    AccountsElement src names nested n := by
  unfold AccountsElement
  rw [buildMarkup_eq]
  refine (accounts_buildContent content).bind fun children fs account => ?_
  unfold buildTag
  -- The content is built first, whatever the tag does with it.
  cases hsort : sortOf src names n with
  | fragment => exact .pure (tag_fragment account hsort)
  | provider key =>
    refine (finds_buildProvider nested n key children).map fun r fs' found => ?_
    obtain ⟨rfl, use, rfl, hkey, hnode, hprovision, hnested⟩ := found
    exact tag_provider account hsort hkey hnode hprovision hnested
  | style =>
    refine (finds_buildStyle n).mono fun r fs' found => ?_
    obtain ⟨hr, rfl⟩ := found
    exact tag_style account hsort hr
  | element tag =>
    refine (finds_buildElement n tag children).map fun r fs' found => ?_
    obtain ⟨e, shown, rfl, rfl, hnode, href, hshown⟩ := found
    exact tag_element account hsort hnode href hshown
  | component name =>
    refine .map (Q := fun r fs' => TagAccount src names nested n fs (some r) fs') ?_
      fun r fs' found => found
    refine .andThen unrecorded_freshId fun id => ?_
    refine attributes.bind fun made fsA accountA => ?_
    refine (finds_passedOptional passed "children").bind fun slot fsP accountP => .pure ?_
    simpa using tag_component account hsort accountA accountP.1 accountP.2

/-! ### Content, attributes and what is handed over -/

/-- A child is an expression, an element or text. -/
theorem accounts_buildChild {nested : Bool} {c : Node}
    (expression : ∀ e, innerExpression? c = some e → AccountsExpression src names true e)
    (element : c.isJsx = true → AccountsElement src names nested c) :
    Accounts src names (childSite? c).toList (if nested then [] else plainBehind src names c)
      (dropped src names c) optionalElements (buildChild src names nested c) := by
  cases childCase src names nested c with
  | leaf hbuild hleaf hjsx =>
    rw [hbuild]
    refine .pure ?_ (by simp [plainBehind, hjsx])
    cases hleaf <;> rfl
  | @expression e hbuild hcontent hkind hinner =>
    have notJsx : c.isJsx = false := by simp [isJsx, jsxKinds, hkind]
    have site : childSite? c = expressionSite? e := by simp [childSite?, hcontent, hkind, hinner]
    have plain : (if nested then [] else plainBehind src names c) = [] := by
      simp [plainBehind, notJsx]
    rw [hbuild, site, plain]
    exact (expression e hinner).imp fun r fs account => account.mono (Subperm.refl _)
      (dropped_subset src names (innerExpression_mem_preorder hinner))
  | element hbuild hcontent hkind hjsx =>
    have site : childSite? c = some c := by simp [childSite?, hcontent, hkind, hjsx]
    have plain : plainBehind src names c = plainProviders src names c := by
      simp [plainBehind, hcontent, hjsx]
    rw [hbuild, site, plain]
    exact element hjsx

/-- The first child comes before the others. -/
theorem accounts_nextChild {nested : Bool} {c : Node} {cs : List Node}
    (expression : ∀ e, innerExpression? c = some e → AccountsExpression src names true e)
    (element : c.isJsx = true → AccountsElement src names nested c)
    (rest : AccountsContent src names nested cs) : AccountsContent src names nested (c :: cs) := by
  unfold AccountsContent
  rw [buildChildren_cons]
  refine (accounts_buildChild expression element).bind fun r fs account => ?_
  refine rest.bind fun rs fs' account' => .pure ?_
  have both := account.append account'
  cases nested <;> simpa [contentSites] using both

/-- The body of a function that is passed is a part of it. -/
theorem apart_passedSite {value : Node} : Apart (passedSite? value).toList [value] := by
  cases h : passedSite? value with
  | none => exact Apart.nil _
  | some v => exact Apart.bare (Option.filter_eq_some_iff.1 h).1

/-- The markup that an attribute hands over, as one of the instance. -/
theorem finds_attributeValue {a : Node}
    (passed : ∀ value, valueExpression? a = some value → AccountsPassed src names value)
    (name : String) :
    Accounts src names [a] [] (dropped src names a) (fun slot => slotsElements slot.toList)
      (passedOptional src names name (valueExpression? a)) := by
  refine (finds_passedOptional passed name).mono fun slot fs found => ?_
  cases hvalue : valueExpression? a with
  | none =>
    rw [hvalue] at found
    exact found.1.of_apart (Apart.nil _) (by simp)
  | some value =>
    rw [hvalue] at found
    have inside := valueExpression_mem_preorder hvalue
    exact found.1.of_apart (apart_passedSite.trans (.of_mem_preorder inside))
      (by simpa using dropped_subset src names inside)

/-- An attribute adds the elements of its slot. -/
theorem elements_addToInstance (name : String) (attr : Node) (slot : Option SlotContent)
    (made : List Attribute × List SlotContent) :
    slotsElements (addToInstance name attr slot made).2 =
      slotsElements slot.toList ++ slotsElements made.2 := by
  cases slot with
  | none => rfl
  | some slot =>
    obtain ⟨slotName, parameters, body⟩ := slot
    simp [addToInstance]

/-- The first attribute comes before the others. -/
theorem accounts_nextAttribute {a : Node} {rest : List Node}
    (passed : ∀ value, valueExpression? a = some value → AccountsPassed src names value)
    (others : AccountsAttributes src names rest) :
    AccountsAttributes src names (a :: rest) := by
  have skipped : Accounts src names (a :: rest) [] ((a :: rest).flatMap (dropped src names))
      (fun made => slotsElements made.2) (buildInstanceAttributes src names rest) :=
    others.imp fun made fs account => account.mono
      (by simpa using (sublist_append_right _ _).subperm) (by simp)
  unfold AccountsAttributes
  rw [buildInstanceAttributes_cons]
  split
  · exact skipped.bind fun made fs account => .pure (by simpa using account)
  refine .andThen (.lift _) fun name => ?_
  split
  · exact skipped
  refine (finds_attributeValue passed name).bind fun slot fs account => ?_
  refine others.bind fun made fs' account' => .pure ?_
  simpa [elements_addToInstance] using account.append account'

/-- A function that is passed accounts for its body. -/
theorem finds_handed {value v : Node} (h : value.bare? = some v)
    (body : ∀ parameters body, passedParts? v = some (parameters, body) →
      AccountsExpression src names true body) : AccountsPassed src names value := by
  intro name
  rw [passedMarkup_of_bare src names h]
  cases hparts : passedParts? v with
  | none => exact .pure ⟨Account.nil _ _, by simp⟩
  | some parts =>
    obtain ⟨parameters, returned⟩ := parts
    have inside := passedParts_mem_preorder hparts
    have site : passedSite? value = some v := by
      unfold passedParts? at hparts
      split at hparts
      · simp_all [passedSite?]
      split at hparts
      · simp_all [passedSite?]
      · cases hparts
    rw [site]
    refine (body parameters returned hparts).bind fun r fs account => .pure ⟨?_, by simp⟩
    have whole : Account src names [v] _ (dropped src names value) _ fs := account.mono
      (((by simpa using apart_expressionSites (.of_mem_preorder inside)) : Apart _ [v]) _
        (gathers_sites src names))
      (dropped_subset src names (preorder_trans inside (bare_mem_preorder h)))
    simpa using whole

/-! ### All builders -/

/-- Every builder has an account of what it finds. -/
theorem accounts_cases :
    BuildCases src (AccountsExpression src names) (AccountsBare src names)
      (AccountsElement src names) (AccountsContent src names) (AccountsAttributes src names)
      (AccountsPassed src names) where
  failed h := by
    unfold AccountsExpression
    rw [buildExpression_of_none h]
    exact .throw _
  bare := accounts_of_bare
  empty h := by
    unfold AccountsBare
    rw [buildBare_empty src names h, not_isJsx_of_isEmptyLiteral h]
    exact .pure rfl (by simp)
  markup {nested n} hempty hjsx element := by
    unfold AccountsBare
    rw [buildBare_markup src names hempty hjsx, hjsx, not_isFunction_of_isJsx hjsx]
    cases nested <;> exact element
  conjunction := accounts_conjunction
  ternary := accounts_ternary
  other := accounts_other
  tag := accounts_tag
  noContent {nested} := by
    unfold AccountsContent
    rw [buildChildren.eq_def]
    exact .pure rfl (by simp)
  nextChild := accounts_nextChild
  noAttributes := by
    unfold AccountsAttributes
    rw [buildInstanceAttributes]
    exact .pure rfl rfl
  nextAttribute := accounts_nextAttribute
  notPassed h name := by
    rw [passedMarkup_of_none src names h]
    exact .throw _
  handed := finds_handed

/-- Every expression has an account of what building it finds. -/
theorem accounts_buildExpression (nested : Bool) (n : Node) :
    AccountsExpression src names nested n :=
  accounts_cases.ofExpression nested n

end Sveltify.Render
