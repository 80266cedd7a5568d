import Sveltify.Analysis.Component
import Sveltify.Proofs.Render.Places
import Sveltify.Proofs.Scope.Binders
import Sveltify.Proofs.Step

namespace Sveltify.Analysis

open Text Scope Component Render

/-!
# What reading a body can do

Every reader of a statement changes what has been read in one of four ways: it adds a report, adds
an effect, keeps a statement without asking for its names, or claims fresh names for an entry. This
is said once here, so that a fact about a whole run follows from four small steps.

* `Owner`: an entry that claims names, with its `names` and what it `enter`s;
* `Move`: the four changes; `Moves`: any number of them;
* `Change`: a move with the nodes that it comes from; `Changes`: any number of them;
* `declareFresh_taken`, `declareFresh_free`: how a claim ends;
* `changes_readStatements`: reading statements makes changes only, each of which comes from a
  declarator or a statement; `leads_readStatements`: so it makes moves only;
* `exists_read_of_analyze`: the model of a component holds what was read of its body, and the trees
  that were built for it.
-/

/-- An entry of a component that has names of its own. -/
inductive Owner where
  | props (p : ComponentProps)
  | state (s : StateBinding)
  | derived (d : DerivedBinding)
  | ref (r : RefBinding)
  | consumer (u : ContextUse)
  | snippet (s : SnippetSource)
  | statement (l : LocalDeclaration)

/-- A cell of state claims its own name and that of its setter or dispatch. -/
def stateNames (s : StateBinding) : List String :=
  s.name :: ((nonEmpty? s.setter).toList ++ (nonEmpty? s.dispatch).toList)

/-- Plain state has its own name and that of its setter. -/
theorem stateNames_of_no_dispatch {s : StateBinding} (h : s.dispatch = none) :
    stateNames s = s.name :: (nonEmpty? s.setter).toList := by
  rw [stateNames, h]
  simp [nonEmpty?]

namespace Owner

variable (src : Source)

/-- The names that an entry claims; the props are one entry. -/
def names : Owner → List String
  | .props p => p.bindings.map (·.visibleName) ++ (nonEmpty? p.identifier).toList
  | .state s => stateNames s
  | .derived d => d.names
  | .ref r => [r.name]
  | .consumer u => boundNamesOf src u.binding
  | .snippet s => [s.name]
  | .statement l => l.names

/-- The names among them whose values change. -/
def reactive : Owner → List String
  | .props p => p.bindings.map (·.visibleName) ++ (nonEmpty? p.identifier).toList
  | .state s => [s.name]
  | .derived d => d.names
  | _ => []

/-- Put an entry where it belongs. The props are no part of what is read. -/
def enter : Owner → Body → Body
  | .props _, b => b
  | .state s, b => { b with state := b.state.insert s.name s }
  | .derived d, b => { b with derived := b.derived.insert d.name d }
  | .ref r, b => { b with refs := b.refs.insert r.name r }
  | .consumer u, b => { b with consumers := b.consumers ++ [u] }
  | .snippet s, b => { b with snippets := b.snippets ++ [s] }
  | .statement l, b => { b with locals := b.locals ++ [l] }

/-- What holds of an entry when it is claimed. The uses of a setter are not known yet, and a derived
value is called by the text of a pattern and has the names that the pattern binds. -/
def IsBound (patterns : List Node) : Owner → Prop
  | .props _ => False
  | .state s => s.setterCalls = [] ∧ s.setterReferences = []
  | .derived d => ∃ p ∈ patterns, d.name = src.text p ∧ d.names = boundNames src p
  | _ => True

/-- Where an entry comes from: the expression of a derived value stands in one of the places, and a
piece of markup with its name and its parameters in the place that declares it. What a component
reads of a context it consumes, and a ref is not bound to an element yet. -/
def StandsIn (places : List Node) : Owner → Prop
  | .derived d => ∃ n ∈ places, d.expression ∈ n.preorder
  | .snippet s =>
    s.node ∈ places ∧ (s.node.field? "name").map src.text = some s.name ∧
      snippetBody? s.node = some s.body ∧
      boundNamesOf src s.parameters ⊆ parameterNames src s.node
  | .consumer u => u.direction = .consume
  | .ref r => r.target = none
  | _ => True

end Owner

variable (src : Source) (patterns places : List Node)

/-- The effect is read off the call of an effect hook, whose callback is `inner` without
wrappers. -/
structure EffectRead (e : EffectBinding) (hook : HookCall) (inner : Node) : Prop where
  call : Hook.match? src e.node.firstNamed? = .ok (some hook)
  kind : hook.kind = .useEffect ∨ hook.kind = .useLayoutEffect
  callback : hook.argument? 0 = some e.callback
  bare : e.callback.bare? = some inner
  eq : e = effectOf src hook e.node e.callback inner (hook.argument? 1)

/-- One change to what has been read. -/
inductive Move : Body → Body → Prop
  | report (b : Body) (r : Report) : Move b { b with reports := b.reports ++ [r] }
  | effect (b : Body) (e : EffectBinding) (h : ∃ hook inner, EffectRead src e hook inner) :
      Move b { b with effects := b.effects ++ [e] }
  | keep (b : Body) (l : LocalDeclaration) (h : l.kind = .unsupported ∨ l.names = []) :
      Move b { b with declared := b.declared ++ l.names, locals := b.locals ++ [l] }
  | claim (b : Body) (o : Owner) (fresh : ∀ x ∈ o.names src, x ∉ b.declared)
      (bound : o.IsBound src patterns) :
      Move b (o.enter { b with declared := b.declared ++ o.names src,
                               reactive := b.reactive ++ o.reactive })

/-- Any number of moves. -/
abbrev Moves : Body → Body → Prop := Relation.ReflTransGen (Move src patterns)

/-- Is the report one of a provider under a condition, or of an unknown name? -/
def isTracked (r : Report) : Bool :=
  r.code == Code.contextProviderHoisted || r.code == Code.unresolvedReference

/-- The names that are declared in the places. -/
abbrev placeNames : List String := places.flatMap (bindingsWithin src)

/-- One change to what has been read, with the places it comes from. -/
inductive Change : Body → Body → Prop
  | report (b : Body) (r : Report) (h : isTracked r = false) :
      Change b { b with reports := b.reports ++ [r] }
  | effect (b : Body) (e : EffectBinding) (h : ∃ hook inner, EffectRead src e hook inner)
      (place : ∃ n ∈ places, e.callback ∈ n.preorder) :
      Change b { b with effects := b.effects ++ [e] }
  | keep (b : Body) (l : LocalDeclaration) (h : l.kind = .unsupported ∨ l.names = [])
      (place : l.names ⊆ placeNames src places) :
      Change b { b with declared := b.declared ++ l.names, locals := b.locals ++ [l] }
  | claim (b : Body) (o : Owner) (fresh : ∀ x ∈ o.names src, x ∉ b.declared)
      (bound : o.IsBound src patterns) (place : o.names src ⊆ placeNames src places)
      (stands : o.StandsIn src places) :
      Change b (o.enter { b with declared := b.declared ++ o.names src,
                                 reactive := b.reactive ++ o.reactive })

/-- Any number of changes. -/
abbrev Changes : Body → Body → Prop := Relation.ReflTransGen (Change src patterns places)

/-! ### Claims -/

/-- The report that a name is taken. -/
def duplicateReport (n : Node) (taken : String) : Report :=
  reportOn src .error Code.duplicateBinding s!"'{taken}' is already declared in this component" n
    taken

/-- What is kept of a declaration with a taken name. -/
def duplicateDeclaration (n : Node) (taken : String) : LocalDeclaration :=
  { kind := .unsupported, node := n, reason := some s!"duplicate declaration of '{taken}'"
    construct := some taken }

/-- A claim with a taken name adds a report and a nameless statement, and nothing else. -/
theorem declareFresh_taken {names reactive : List String} {n : Node} {b : Body} {taken : String}
    (h : names.find? b.declared.contains = some taken) :
    declareFresh src names n reactive b = .ok false
      { b with reports := b.reports ++ [duplicateReport src n taken]
               locals := b.locals ++ [duplicateDeclaration n taken] } := by
  unfold declareFresh
  refine bind_ok_iff.2 ⟨b, b, rfl, ?_⟩
  rw [h]
  show EStateM.Result.ok false
    { b with reports := b.reports ++ [duplicateReport src n taken]
             declared := b.declared ++ []
             locals := b.locals ++ [duplicateDeclaration n taken] } = _
  rw [List.append_nil]

/-- A claim of free names declares them. -/
theorem declareFresh_free {names reactive : List String} {n : Node} {b : Body}
    (h : names.find? b.declared.contains = none) :
    declareFresh src names n reactive b = .ok true
      { b with declared := b.declared ++ names, reactive := b.reactive ++ reactive } := by
  unfold declareFresh
  refine bind_ok_iff.2 ⟨b, b, rfl, ?_⟩
  rw [h]
  rfl

/-- Whatever would be done after a claim is left undone if a name is taken. -/
theorem claim_taken {names reactive : List String} {n : Node} {b : Body} {taken : String}
    (k : Reading Unit) (h : names.find? b.declared.contains = some taken) :
    (do if ← declareFresh src names n reactive then k) b = .ok ()
      { b with reports := b.reports ++ [duplicateReport src n taken]
               locals := b.locals ++ [duplicateDeclaration n taken] } :=
  bind_ok_iff.2 ⟨false, _, declareFresh_taken src h, rfl⟩

/-- The entry of an owner with these names. -/
def Enters (names reactive : List String) (b b' : Body) : Prop :=
  ∃ o : Owner, o.names src = names ∧ o.reactive = reactive ∧ o.IsBound src patterns ∧
    o.StandsIn src places ∧ b' = o.enter b

variable {src} {patterns places}

/-- **Claim.** A claim followed by the entry of its owner makes changes only. -/
theorem leads_claim {names reactive : List String} {n : Node} {k : Reading Unit}
    (hnames : names ⊆ placeNames src places)
    (hk : Leads (Enters src patterns places names reactive) k) :
    Leads (Changes src patterns places) (do if ← declareFresh src names n reactive then k) := by
  intro b u b' h
  cases hfind : names.find? b.declared.contains with
  | some taken =>
    -- If a name is taken, this is reported and the declaration is kept as it is.
    rw [claim_taken src k hfind] at h
    cases h
    have kept := @Change.keep src patterns places
      { b with reports := b.reports ++ [duplicateReport src n taken] }
      (duplicateDeclaration n taken) (.inl rfl) (List.nil_subset _)
    simp only [duplicateDeclaration, List.append_nil] at kept ⊢
    exact (Relation.ReflTransGen.single (.report b _ rfl)).tail kept
  | none =>
    obtain ⟨ok, b₁, h₁, h₂⟩ := bind_ok_iff.1 h
    rw [declareFresh_free src hfind] at h₁
    cases h₁
    obtain ⟨o, rfl, rfl, hbound, hstands, rfl⟩ := hk h₂
    refine .single (.claim b o (fun x hx hmem => ?_) hbound hnames hstands)
    have := List.find?_eq_none.1 hfind x hx
    simp [hmem] at this

/-! ### Names and places -/

/-- An identifier binds itself. -/
theorem boundNames_identifier {p : Node} (h : (p.kind == "identifier") = true) :
    boundNames src p = [src.text p] :=
  boundNames_name (.inl (eq_of_beq h))

/-- The names of a cell and its companion are names that the pattern binds. -/
theorem cellNames_subset {p : Node} {name : String} {companion : Option String}
    (h : cellNames? src p = some (name, companion)) :
    name :: companion.toList ⊆ boundNames src p := by
  unfold cellNames? at h
  split at h
  · rename_i hkind
    rw [boundNames_compound (by rw [eq_of_beq hkind]; decide)]
    split at h
    · cases h
    · -- The cell is the first element of the pattern, and its companion the next one.
      rename_i cell rest hchildren
      rw [hchildren]
      split at h
      · rename_i hcell
        simp only [Option.some.injEq, Prod.mk.injEq] at h
        obtain ⟨rfl, hcompanion⟩ := h
        intro x hx
        rcases List.mem_cons.1 hx with rfl | hx
        · simp [boundNames_identifier hcell]
        · rw [← hcompanion] at hx
          obtain ⟨c, hc, hname⟩ := Option.bind_eq_some_iff.1 (Option.mem_toList.1 hx)
          split at hname
          · rename_i hidentifier
            cases hname
            refine List.mem_flatMap.2 ⟨c, List.mem_cons_of_mem _ (List.mem_of_head? hc), ?_⟩
            simp [boundNames_identifier hidentifier]
          · cases hname
      · cases h
  · cases h

theorem nonEmpty_toList_subset (name : Option String) : (nonEmpty? name).toList ⊆ name.toList := by
  unfold nonEmpty?
  split <;> simp

/-- The declarator stands among the places, and its pattern among the patterns. -/
structure IsDeclarator (patterns places : List Node) (n p : Node) : Prop where
  place : n ∈ places
  kind : n.kind = "variable_declarator"
  name : n.field? "name" = some p
  pattern : p ∈ patterns

/-- The names of a declarator are names of the places. -/
theorem IsDeclarator.names {n p : Node} (h : IsDeclarator patterns places n p) :
    boundNames src p ⊆ placeNames src places := by
  intro x hx
  refine List.mem_flatMap.2 ⟨n, h.place, ?_⟩
  apply boundNamesOf_subset_bindingsWithin (Node.mem_preorder_self n) h.kind
  rw [h.name]
  exact hx

/-- The arguments of a hook stand in the expression that calls it. -/
theorem argument_mem_preorder {n argument : Node} {hook : HookCall} {i : Nat}
    (h : Hook.match? src (some n) = .ok (some hook)) (hi : hook.argument? i = some argument) :
    argument ∈ n.preorder := by
  unfold Hook.match? at h
  dsimp only at h
  cases hbare : n.bare? with
  | none =>
    rw [hbare] at h
    cases h
  | some call =>
    rw [hbare] at h
    have hcall : Hook.ofCall? src call = some hook := Except.ok.inj h
    -- The arguments of a hook are those of the call that it was read from.
    have arguments : hook.arguments = Hook.argumentsOf call := by
      unfold Hook.ofCall? at hcall
      split at hcall
      · cases hcall
      · split at hcall
        · cases hcall
        · cases hcall
          rfl
    have member : argument ∈ Hook.argumentsOf call := arguments ▸ List.mem_of_getElem? hi
    unfold Hook.argumentsOf at member
    cases hlist : call.field? "arguments" with
    | none => simp [hlist] at member
    | some list =>
      rw [hlist] at member
      have inCall := Node.field_mem_preorder hlist (Node.mem_preorder_self call)
      exact Node.preorder_trans (Node.child_mem_preorder (Node.namedChildren_subset member) inCall)
        (Node.bare_mem_preorder hbare)

/-! ### Readers -/

/-- A report that is not tracked. -/
theorem leads_report {severity : Severity} {code message : String} {n : Node} {construct : String}
    (h : (code == Code.contextProviderHoisted || code == Code.unresolvedReference) = false) :
    Leads (Changes src patterns places) (report src severity code message n construct) :=
  .modify fun b => .single (.report b _ h)

/-- A statement that is kept without owning names. -/
theorem leads_addLocal {l : LocalDeclaration} (h : l.kind = .unsupported ∨ l.names = [])
    (hnames : l.names ⊆ placeNames src places) :
    Leads (Changes src patterns places) (addLocal l) :=
  .modify fun b => .single (.keep b l h hnames)

/-- A statement that owns its names. -/
theorem leads_bindStatement {l : LocalDeclaration} (hnames : l.names ⊆ placeNames src places) :
    Leads (Changes src patterns places) (bindStatement src l) :=
  leads_claim hnames <| .modify fun _ => ⟨.statement l, rfl, rfl, trivial, trivial, rfl⟩

/-- A snippet owns its name. -/
theorem leads_bindSnippet {names : List String} {s : SnippetSource} (h : names = [s.name])
    (hnames : names ⊆ placeNames src places) (hs : (Owner.snippet s).StandsIn src places) :
    Leads (Changes src patterns places) (bindSnippet src names s) :=
  leads_claim hnames <| .modify fun _ => ⟨.snippet s, h.symm, rfl, trivial, hs, rfl⟩

/-- A derived value owns the names of its pattern. -/
theorem leads_bindDerived {d : DerivedBinding} {n p : Node} (hd : IsDeclarator patterns places n p)
    (hname : d.name = src.text p) (hnames : d.names = boundNames src p)
    (hexpression : d.expression ∈ n.preorder) :
    Leads (Changes src patterns places) (bindDerived src d) :=
  leads_claim (hnames ▸ hd.names) <| .modify fun _ =>
    ⟨.derived d, rfl, rfl, ⟨p, hd.pattern, hname, hnames⟩, ⟨n, hd.place, hexpression⟩, rfl⟩

/-- A cell of state enters with its names. -/
theorem leads_insertState {s : StateBinding} (hs : (Owner.state s).IsBound src patterns) :
    Leads (Enters src patterns places (stateNames s) [s.name])
      (modify fun b => { b with state := b.state.insert s.name s } : Reading Unit) :=
  .modify fun _ => ⟨.state s, rfl, rfl, hs, trivial, rfl⟩

/-- It enters if they are free. -/
theorem leads_bindState {s : StateBinding} (hs : (Owner.state s).IsBound src patterns)
    (hnames : stateNames s ⊆ placeNames src places) :
    Leads (Changes src patterns places) (bindState src s) :=
  leads_claim hnames (leads_insertState hs)

/-- A ref enters without a target. -/
theorem leads_insertRef {r : RefBinding} (h : r.target = none) :
    Leads (Enters src patterns places [r.name] [])
      (modify fun b => { b with refs := b.refs.insert r.name r } : Reading Unit) :=
  .modify fun _ => ⟨.ref r, rfl, rfl, trivial, h, rfl⟩

/-- A declarator that is refused is kept. -/
theorem leads_refuseDeclarator {declarator : Node} {names : List String}
    {keyword reason : String} {construct : Option String}
    (hnames : names ⊆ placeNames src places) :
    Leads (Changes src patterns places)
      (refuseDeclarator declarator names keyword reason construct) :=
  leads_addLocal (.inl rfl) hnames

/-- So is a statement that is refused. -/
theorem leads_refuseStatement (statement : Node) (reason : String) (construct : Option String) :
    Leads (Changes src patterns places) (refuseStatement statement reason construct) :=
  leads_addLocal (.inl rfl) (List.nil_subset _)

/-- A warning changes nothing but the reports. -/
theorem leads_warnUnread (hook : HookCall) (function : Node) (deps : Option Node) :
    Leads (Changes src patterns places) (warnUnread src hook function deps) := by
  unfold warnUnread
  dsimp only
  split
  · exact leads_report rfl
  · exact .pure _

section Declarators

variable {declarator pattern : Node} (hd : IsDeclarator patterns places declarator pattern)
include hd

theorem leads_readState (hook : HookCall) (keyword : String) :
    Leads (Changes src patterns places) (readState src hook declarator pattern keyword) := by
  unfold readState
  split
  case h_1 name setter hcell _ =>
    refine leads_claim ?_ ?_
    · refine List.Subset.trans (List.cons_subset_cons _ (nonEmpty_toList_subset setter)) ?_
      exact List.Subset.trans (cellNames_subset hcell) hd.names
    let cell (isLazy : Bool) : StateBinding :=
      { name, node := declarator, kind := .plain, initial := hook.argument? 0, setter
        typeArguments := hook.typeArguments, isLazy }
    have entered (isLazy : Bool) := @leads_insertState src patterns places (cell isLazy) ⟨rfl, rfl⟩
    simp only [stateNames_of_no_dispatch (s := cell _) rfl] at entered
    -- Whether the value is lazy is found out between the claim and the entry.
    dsimp only
    split
    · exact .after (.need _) fun value => .after (.pure _) entered
    · exact .after (.pure _) entered
  case h_2 => exact leads_refuseDeclarator hd.names

theorem leads_readReducer (hook : HookCall) (keyword : String) :
    Leads (Changes src patterns places) (readReducer src hook declarator pattern keyword) := by
  unfold readReducer
  split
  case h_1 name dispatch reducer hcell _ =>
    let cell : StateBinding :=
      { name, node := declarator, kind := .reducer, initial := hook.argument? 1
        reducer := some reducer, reducerInitializer := hook.argument? 2, dispatch
        typeArguments := hook.typeArguments }
    have names : stateNames cell ⊆ placeNames src places := by
      refine List.Subset.trans (List.cons_subset_cons _ (nonEmpty_toList_subset dispatch)) ?_
      exact List.Subset.trans (cellNames_subset hcell) hd.names
    refine .bind (.need _) fun inner => ?_
    dsimp only
    split
    · exact .bind (leads_report rfl) fun _ => leads_bindState ⟨rfl, rfl⟩ names
    · exact leads_bindState ⟨rfl, rfl⟩ names
  case h_2 => exact leads_refuseDeclarator hd.names

theorem leads_readMemo {hook : HookCall}
    (hcall : Hook.match? src (declarator.field? "value") = .ok (some hook)) (keyword : String) :
    Leads (Changes src patterns places) (readMemo src hook declarator pattern keyword) := by
  unfold readMemo
  dsimp only
  split
  · exact leads_refuseDeclarator hd.names
  · rename_i factory hfactory
    -- The factory, and so what it returns, stands in the value of the declarator.
    have inside : factory ∈ declarator.preorder := by
      cases hvalue : declarator.field? "value" with
      | none =>
        rw [hvalue] at hcall
        cases hcall
      | some value =>
        rw [hvalue] at hcall
        exact Node.preorder_trans (argument_mem_preorder hcall hfactory)
          (Node.field_mem_preorder hvalue (Node.mem_preorder_self _))
    refine Leads.closed.bind (.need _) fun {_ inner _} hinner => ?_
    have hbare := (need_ok_iff.1 hinner).1
    have expression : ((inner.field? "body").filter fun b =>
        inner.isFunction && b.kind != "statement_block" && !inner.hasToken "async").getD factory
          ∈ declarator.preorder := by
      cases hbody : (inner.field? "body").filter fun b =>
          inner.isFunction && b.kind != "statement_block" && !inner.hasToken "async" with
      | none => exact inside
      | some body =>
        have hbody := (Option.filter_eq_some_iff.1 hbody).1
        exact Node.field_mem_preorder hbody
          (Node.preorder_trans (Node.bare_mem_preorder hbare) inside)
    split
    · exact .bind (leads_warnUnread _ _ _) fun _ => leads_bindDerived hd rfl rfl expression
    · split
      · exact .bind (leads_report rfl) fun _ => leads_bindDerived hd rfl rfl expression
      · exact leads_bindDerived hd rfl rfl expression

theorem leads_readCallback (hook : HookCall) (keyword : String) :
    Leads (Changes src patterns places) (readCallback src hook declarator pattern keyword) := by
  unfold readCallback
  dsimp only
  split
  · refine .bind (.need _) fun inner => ?_
    split
    · exact .bind (.need _) fun _ => .bind (leads_warnUnread _ _ _) fun _ =>
        leads_bindStatement hd.names
    · exact leads_bindStatement hd.names
  · exact leads_refuseDeclarator hd.names

theorem leads_readContext (hook : HookCall) (keyword : String) :
    Leads (Changes src patterns places) (readContext src hook declarator pattern keyword) := by
  unfold readContext
  dsimp only
  split
  · exact leads_refuseDeclarator hd.names
  · refine .bind (.need _) fun inner => ?_
    have consumed (key : String) : Leads (Changes src patterns places) (do
        if ← declareFresh src (boundNames src pattern) declarator [] then
          modify fun b => { b with
            consumers := b.consumers ++
              [{ key, direction := .consume, node := declarator, binding := some pattern
                 defaultValue := (b.contextDefinitions.get? key).bind (·.defaultValue) }] }) := by
      refine leads_claim hd.names (.modify fun b => ?_)
      refine ⟨.consumer _, rfl, rfl, trivial, ?_, rfl⟩
      rfl
    split
    · exact .bind (leads_report rfl) fun _ => consumed _
    · exact consumed _

theorem leads_readRef (hook : HookCall) (keyword : String) :
    Leads (Changes src patterns places) (readRef src hook declarator pattern keyword) := by
  unfold readRef
  dsimp only
  split
  case isTrue h =>
    have names : boundNames src pattern ⊆ placeNames src places := hd.names
    rw [boundNames_identifier h] at names ⊢
    exact leads_claim names <| @leads_insertRef src patterns places
      { name := src.text pattern, node := declarator, initial := hook.argument? 0
        typeArguments := hook.typeArguments } rfl
  case isFalse => exact leads_refuseDeclarator hd.names

/-- Whatever the hook is, there are only such changes. -/
theorem leads_readHook {hook : HookCall}
    (hcall : Hook.match? src (declarator.field? "value") = .ok (some hook)) (keyword : String) :
    Leads (Changes src patterns places) (readHook src hook declarator pattern keyword) := by
  unfold readHook
  dsimp only
  split
  · exact leads_readState hd _ _
  · exact leads_readReducer hd _ _
  · exact leads_readMemo hd hcall _
  · exact leads_readCallback hd _ _
  · exact leads_readContext hd _ _
  · exact leads_readRef hd _ _
  · exact leads_bindStatement hd.names
  · exact .bind (leads_report rfl) fun _ => leads_bindStatement hd.names
  all_goals exact leads_refuseDeclarator hd.names

/-- So it is without a hook. -/
theorem leads_readValue {value : Node} (hvalue : declarator.field? "value" = some value)
    (keyword : String) :
    Leads (Changes src patterns places) (readValue src declarator pattern value keyword) := by
  unfold readValue
  dsimp only
  refine Leads.closed.bind (.need _) fun {_ inner _} hinner => ?_
  have inValue : value ∈ declarator.preorder :=
    Node.field_mem_preorder hvalue (Node.mem_preorder_self _)
  have inside : inner ∈ declarator.preorder :=
    Node.preorder_trans (Node.bare_mem_preorder (need_ok_iff.1 hinner).1) inValue
  -- What a snippet shows: the value if it is markup, or else what a function returns.
  have body : snippetBody? declarator = if inner.isJsx then some inner else onlyReturn? inner := by
    have notFunction : declarator.isFunction = false := by
      simp [Node.isFunction, Node.functionKinds, hd.kind]
    simp [snippetBody?, notFunction, hvalue, (need_ok_iff.1 hinner).1]
  split
  case isTrue h =>
    rw [Bool.and_eq_true] at h
    rw [if_pos h.1] at body
    refine leads_bindSnippet (boundNames_identifier h.2) hd.names ⟨hd.place, ?_, body, ?_⟩
    · rw [hd.name]
      rfl
    · exact List.nil_subset _
  case isFalse =>
    split
    · rename_i hfunction
      split
      case h_1 returned _ hreturned h =>
        rw [Bool.and_eq_true] at hfunction
        rw [Node.not_isJsx_of_isFunction hfunction.1, if_neg (by decide), hreturned] at body
        refine leads_bindSnippet (boundNames_identifier h) hd.names ⟨hd.place, ?_, body, ?_⟩
        · rw [hd.name]
          rfl
        · exact boundNames_slotParameters_subset hfunction.1 inside
      case h_2 => exact leads_refuseDeclarator hd.names
    · split
      · exact leads_refuseDeclarator hd.names
      · refine .bind .get fun b => ?_
        split
        · exact leads_bindDerived hd rfl rfl inValue
        · exact leads_bindStatement hd.names

end Declarators

/-- A declarator makes changes only, if it is among the places and its pattern among those
allowed. -/
theorem leads_readDeclarator (keyword : String) {declarator : Node}
    (hd : ∀ p, declarator.field? "name" = some p → IsDeclarator patterns places declarator p) :
    Leads (Changes src patterns places) (readDeclarator src keyword declarator) := by
  unfold readDeclarator
  split
  case h_1 => exact .pure _
  case h_2 pattern h =>
    refine Leads.closed.bind (.lift _) fun hhook => ?_
    have hcall := (lift_ok_iff.1 hhook).1
    split
    · exact leads_readHook (hd pattern h) hcall _
    · exact leads_readValue (hd pattern h) ‹_› _
    · exact leads_bindStatement (hd pattern h).names

/-- So it is for functions. -/
theorem leads_readFunction {statement : Node} (hplace : statement ∈ places)
    (hkind : statement.kind = "function_declaration") :
    Leads (Changes src patterns places) (readFunction src statement) := by
  have function : statement.isFunction = true := by
    simp [Node.isFunction, Node.functionKinds, hkind]
  -- The statement is a place where its own name is bound.
  have names : ((statement.field? "name").map src.text).toList ⊆ placeNames src places := by
    intro x hx
    refine List.mem_flatMap.2 ⟨statement, hplace,
      List.mem_flatMap.2 ⟨statement, Node.mem_preorder_self _, ?_⟩⟩
    simp only [ownBindings, function, hkind]
    exact List.mem_append_right _ (by simpa using hx)
  unfold readFunction
  dsimp only
  split
  · split
    case h_1 returned name hreturned h =>
      rw [h] at names ⊢
      have body : snippetBody? statement = some returned := by
        rw [snippetBody?, if_pos function, hreturned]
      refine leads_bindSnippet rfl names ⟨hplace, h, body, ?_⟩
      have inside : boundNamesOf src (slotParameters statement) ⊆ parameterNames src statement :=
        boundNames_slotParameters_subset function (Node.mem_preorder_self statement)
      cases hparameters : statement.field? "parameters" with
      | none => exact List.nil_subset _
      | some parameters =>
        rwa [slotParameters, hparameters, Option.some_or] at inside
    case h_2 => exact leads_addLocal (.inl rfl) names
  · exact leads_bindStatement names

theorem leads_warnComputedList (hook : HookCall) (deps : Option Node) :
    Leads (Changes src patterns places) (warnComputedList src hook deps) := by
  unfold warnComputedList
  split
  · split
    · exact leads_report rfl
    · exact .pure _
  · exact .pure _

theorem leads_remarkCallback (hook : HookCall) (callback inner : Node) (deps : Option Node) :
    Leads (Changes src patterns places) (remarkCallback src hook callback inner deps) := by
  unfold remarkCallback
  split
  · exact leads_warnUnread _ _ _
  · split <;> exact leads_report rfl

theorem leads_remarkEveryUpdate (hook : HookCall) (statement : Node) (deps : Option Node) :
    Leads (Changes src patterns places) (remarkEveryUpdate src hook statement deps) := by
  unfold remarkEveryUpdate
  split
  · exact leads_report rfl
  · exact .pure _

/-- An effect is read into one entry. -/
theorem leads_readEffect {hook : HookCall} {statement : Node} (hplace : statement ∈ places)
    (hcall : Hook.match? src statement.firstNamed? = .ok (some hook))
    (hkind : hook.kind = .useEffect ∨ hook.kind = .useLayoutEffect) :
    Leads (Changes src patterns places) (readEffect src hook statement) := by
  unfold readEffect
  split
  · exact leads_refuseStatement _ _ _
  · rename_i callback hcallback
    have inside : callback ∈ statement.preorder := by
      cases hfirst : statement.firstNamed? with
      | none =>
        rw [hfirst] at hcall
        cases hcall
      | some first =>
        rw [hfirst] at hcall
        exact Node.preorder_trans (argument_mem_preorder hcall hcallback)
          (firstNamed_mem_preorder hfirst)
    refine .bind (leads_warnComputedList _ _) fun _ => Leads.closed.bind (.need _) fun hinner => ?_
    refine .bind (leads_remarkCallback _ _ _ _) fun _ => ?_
    refine .bind (leads_remarkEveryUpdate _ _ _) fun _ => ?_
    refine .modify fun b => .single (.effect b _ ⟨hook, ?_, ?_⟩ ⟨statement, hplace, inside⟩)
    · exact ‹Node›
    · exact ⟨hcall, hkind, hcallback, (need_ok_iff.1 hinner).1, rfl⟩

theorem leads_keepStatement (statement : Node) :
    Leads (Changes src patterns places) (keepStatement statement) := by
  unfold keepStatement
  split
  · exact leads_refuseStatement _ _ _
  · exact leads_addLocal (.inr rfl) (List.nil_subset _)

/-- An expression is an effect, or it is kept. -/
theorem leads_readExpression {statement : Node} (hplace : statement ∈ places) :
    Leads (Changes src patterns places) (readExpression src statement) := by
  unfold readExpression
  refine Leads.closed.bind (.lift _) fun hcall => ?_
  split
  · exact leads_keepStatement _
  · have hcall := (lift_ok_iff.1 hcall).1
    split
    · exact leads_readEffect hplace hcall (.inl ‹_›)
    · exact leads_readEffect hplace hcall (.inr ‹_›)
    · exact leads_report rfl
    · exact .bind (leads_report rfl) fun _ => leads_addLocal (.inr rfl) (List.nil_subset _)
    · exact leads_refuseStatement _ _ _
    · exact leads_refuseStatement _ _ _

/-! ### Statements -/

/-- The patterns of the declarators of a statement. -/
def declaredPatterns (statement : Node) : List Node :=
  if isVariableDeclaration statement then
    (statement.namedChildren.filter (·.kind == "variable_declarator")).filterMap (·.field? "name")
  else []

/-- The places that a statement is read from: its declarators, or else the statement itself. -/
def readPlaces (statement : Node) : List Node :=
  if isVariableDeclaration statement then
    statement.namedChildren.filter (·.kind == "variable_declarator")
  else [statement]

/-- All sorts of statements make such changes. -/
theorem leads_readStatement {statement : Node}
    (hp : ∀ p ∈ declaredPatterns statement, p ∈ patterns)
    (hplaces : ∀ n ∈ readPlaces statement, n ∈ places) :
    Leads (Changes src patterns places) (readStatement src statement) := by
  unfold readStatement
  split
  case isTrue h =>
    rw [readPlaces, if_pos h] at hplaces
    refine .forM fun d hd => leads_readDeclarator _ fun p hname => ?_
    refine ⟨hplaces d hd, eq_of_beq (List.mem_filter.1 hd).2, hname, hp p ?_⟩
    rw [declaredPatterns, if_pos h]
    exact List.mem_filterMap.2 ⟨d, hd, hname⟩
  case isFalse h =>
    rw [readPlaces, if_neg h] at hplaces
    have hplace := hplaces statement (List.mem_singleton.2 rfl)
    split
    · exact leads_readFunction hplace (eq_of_beq ‹_›)
    · split
      · exact leads_readExpression hplace
      · split
        · exact leads_addLocal (.inr rfl) (List.nil_subset _)
        · exact leads_keepStatement _

/-- The statements that are read before the first return: those in front of it that are no early
returns. -/
def readBefore : List Node → List Node
  | [] => []
  | s :: rest =>
    if s.kind == "return_statement" then []
    else
      match returnChain? s with
      | some chain => if chain.isTerminal then [] else readBefore rest
      | none => s :: readBefore rest

/-- **Run.** Reading statements makes changes only, whatever they are. -/
theorem changes_readStatements {statements : List Node}
    (hp : ∀ p ∈ statements.flatMap declaredPatterns, p ∈ patterns)
    (hplaces : ∀ n ∈ (readBefore statements).flatMap readPlaces, n ∈ places) :
    Leads (Changes src patterns places) (readStatements src statements) := by
  -- By induction on the statements; `readBefore` keeps them up to where reading stops.
  induction statements with
  | nil => exact .pure _
  | cons s rest ih =>
    rw [List.flatMap_cons] at hp
    have tail := ih fun p hmem => hp p (List.mem_append_right _ hmem)
    unfold readStatements
    unfold readBefore at hplaces
    split
    · exact .pure _
    · rename_i hreturn
      rw [if_neg hreturn] at hplaces
      split
      · rename_i chain hchain
        rw [hchain] at hplaces
        dsimp only at hplaces
        split
        · exact .pure _
        · rename_i hterminal
          rw [if_neg hterminal] at hplaces
          exact .bind (tail hplaces) fun _ => .pure _
      · rename_i hchain
        rw [hchain] at hplaces
        dsimp only at hplaces
        rw [List.flatMap_cons] at hplaces
        refine .bind (leads_readStatement (fun p hmem => hp p (List.mem_append_left _ hmem))
          fun n hn => hplaces n (List.mem_append_left _ hn)) fun _ => ?_
        exact tail fun n hn => hplaces n (List.mem_append_right _ hn)

/-- A change without its places is a move. -/
theorem Change.move {b b' : Body} (h : Change src patterns places b b') : Move src patterns b b' := by
  cases h with
  | report r _ => exact .report b r
  | effect e h _ => exact .effect b e h
  | keep l h _ => exact .keep b l h
  | claim o fresh bound _ _ => exact .claim b o fresh bound

/-- Reading statements makes moves only. -/
theorem leads_readStatements {statements : List Node}
    (hp : ∀ p ∈ statements.flatMap declaredPatterns, p ∈ patterns) :
    Leads (Moves src patterns) (readStatements src statements) := by
  intro b returned b' hrun
  have changes := changes_readStatements hp (fun n hn => hn) hrun
  exact changes.lift id fun _ _ h => h.move

/-! ### Models -/

/-- Reading what a function does makes moves only. -/
theorem leads_readFunctionBody (function : Node) :
    Leads (fun b b' => ∃ patterns, Moves src patterns b b') (readFunctionBody src function) := by
  have unread (returned : List ReturnChain × Option Node) :
      Leads (fun b b' => ∃ patterns, Moves src patterns b b')
        (pure returned : Reading (List ReturnChain × Option Node)) := by
    intro b _ b' hrun
    cases hrun
    exact ⟨[], .refl⟩
  unfold readFunctionBody
  split
  · split
    · exact fun b _ b' hrun => ⟨_, leads_readStatements (fun p hp => hp) hrun⟩
    · exact unread _
  · exact unread _

/-- Reading the body of a component makes moves only. -/
theorem moves_readBody {function : Node} {start : Body} {reports reports' : List Report}
    {read : ComponentBody} (h : readBody src function start reports = .ok read reports') :
    ∃ patterns, Moves src patterns { start with reports } read.body := by
  unfold readBody at h
  split at h
  case h_1 hrun =>
    cases h
    exact leads_readFunctionBody function hrun
  case h_2 => cases h

/-- All effects have been read off calls of effect hooks. -/
theorem effectRead_of_moves {b b' : Body} (hmoves : Moves src patterns b b')
    (h : ∀ e ∈ b.effects, ∃ hook inner, EffectRead src e hook inner) :
    ∀ e ∈ b'.effects, ∃ hook inner, EffectRead src e hook inner := by
  induction hmoves with
  | refl => exact h
  | tail _ hmove ih =>
    cases hmove with
    | report r => exact ih
    | keep l _ => exact ih
    | claim o _ _ => cases o <;> exact ih
    | effect e he =>
      intro e' he'
      rcases List.mem_append.1 he' with he' | he'
      · exact ih e' he'
      · rw [List.mem_singleton.1 he']
        exact he

/-- A report stays, whatever is read after it. -/
theorem reports_subset_of_moves {b b' : Body} (hmoves : Moves src patterns b b') :
    b.reports ⊆ b'.reports := by
  induction hmoves with
  | refl => exact List.Subset.refl _
  | tail _ hmove ih =>
    cases hmove with
    | report r => exact List.Subset.trans ih (List.subset_append_left _ _)
    | effect e _ => exact ih
    | keep l _ => exact ih
    | claim o _ _ => cases o <;> exact ih

/-- The model of a component holds what was read of its body, and the trees that were built. -/
theorem exists_read_of_analyze {m : Module} {o : Options} {reports reports' : List Report}
    {model : Model} (h : analyze m o reports = .ok model reports') :
    ∃ (function : Node) (start : Body) (names : Names) (read : ComponentBody) (found : Progress)
      (r₁ r₂ r₃ : List Report),
      start.effects = [] ∧ readBody m.source function start r₁ = .ok read r₂ ∧
      renderBody m.source names read r₂ = .ok ((model.snippets, model.renderTree), found) r₃ ∧
      model.effects = read.body.effects := by
  unfold analyze at h
  obtain ⟨choice, _, _, h⟩ := bind_ok_iff.1 h
  unfold analyzeComponent at h
  obtain ⟨_, _, _, h⟩ := bind_ok_iff.1 h
  obtain ⟨top, _, _, h⟩ := bind_ok_iff.1 h
  obtain ⟨read, _, hread, h⟩ := bind_ok_iff.1 h
  obtain ⟨trees, _, htrees, h⟩ := bind_ok_iff.1 h
  obtain ⟨_, _, _, h⟩ := bind_ok_iff.1 h
  obtain ⟨_, _, _, h⟩ := bind_ok_iff.1 h
  cases h
  exact ⟨_, _, _, read, trees.2, _, _, _, rfl, hread, htrees, rfl⟩

/-- Every effect of a model has been read off the call of an effect hook. -/
theorem effectRead_of_analyze {m : Module} {o : Options} {reports reports' : List Report}
    {model : Model} (h : analyze m o reports = .ok model reports') :
    ∀ e ∈ model.effects, ∃ hook inner, EffectRead m.source e hook inner := by
  obtain ⟨_, start, _, read, _, _, _, _, hstart, hread, _, heffects⟩ := exists_read_of_analyze h
  obtain ⟨patterns, hmoves⟩ := moves_readBody hread
  rw [heffects]
  refine effectRead_of_moves hmoves fun e he => ?_
  simp [hstart] at he

end Sveltify.Analysis
