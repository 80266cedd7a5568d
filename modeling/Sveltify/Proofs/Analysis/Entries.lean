import Sveltify.Proofs.Analysis.UnknownNames

namespace Sveltify.Analysis

open Text Scope Component Render Node List

/-!
# Entries and the statements they stand for

Every reader of a statement ends with an entry whose node is the statement or a declarator of it, or
with a report that it is left out. What has been entered stays: a later entry takes the place of
another only among derived values, which are kept under the text of their pattern.

* `Body.nodes`: the nodes of the entries that have been read;
* `Noted`: the node has an entry, or a report instead of one;
* `Keyed`: entries are kept under names that are taken;
* `Noted.move`, `Noted.moves`: what is noted stays noted;
* `Marks`: a step notes a node, and adds no entry for another one; `marks_readDeclarator`,
  `marks_readFunction`, `marks_readExpression`: so does every reader;
* `Records`: the same for several nodes; `records_readStatements`: reading statements notes the
  places of all statements in front of the first return, and of no others.
-/

variable {src : Source}

/-! ### Nodes of entries -/

/-- The nodes of all entries but the derived values. A ref that is received is no entry of the
body. -/
def Body.steadyNodes (b : Body) : List Node :=
  b.state.values.map (·.node) ++ b.effects.map (·.node) ++ b.consumers.map (·.node)
    ++ (b.refs.values.filter (!·.isForwarded)).map (·.node) ++ b.snippets.map (·.node)
    ++ b.locals.map (·.node)

/-- The nodes of all entries of a body. -/
def Body.nodes (b : Body) : List Node := b.steadyNodes ++ b.derived.values.map (·.node)

/-- The report on a call that has no counterpart and is left out. -/
def erasedReport (src : Source) (n : Node) (hook : HookCall) : Report :=
  reportOn src .info Code.hookErased "useDebugValue has no Svelte equivalent and was removed" n
    hook.name

/-- The node is noted: it has an entry, or a report that it is left out. A derived value may have
given way to another one under the text of its pattern, which has none of its names. -/
inductive Noted (src : Source) (n : Node) (b : Body) : Prop
  | entry (mem : n ∈ b.steadyNodes)
  | derived {p : Node} {d : DerivedBinding} (name : n.field? "name" = some p)
      (declared : boundNames src p ⊆ b.declared) (mem : d ∈ b.derived.values)
      (text : d.name = src.text p) (own : d.node = n ∨ d.names.Disjoint (boundNames src p))
  | erased {hook : HookCall} (call : Hook.match? src n.firstNamed? = .ok (some hook))
      (kind : hook.kind = .useDebugValue) (reported : erasedReport src n hook ∈ b.reports)

variable {n : Node} {b b' : Body} {patterns : List Node}

/-- A node stays noted where nothing is lost. -/
theorem Noted.mono (h : Noted src n b) (steady : b.steadyNodes ⊆ b'.steadyNodes)
    (derived : b.derived.values ⊆ b'.derived.values) (declared : b.declared ⊆ b'.declared)
    (reports : b.reports ⊆ b'.reports) : Noted src n b' := by
  cases h with
  | entry mem => exact .entry (steady mem)
  | derived name hdeclared mem text own =>
    exact .derived name (Subset.trans hdeclared declared) (derived mem) text own
  | erased call kind reported => exact .erased call kind (reports reported)

/-! ### What is noted stays noted -/

/-- Cells of state and refs are kept under names that are taken, derived values under their own
texts. -/
structure Keyed (b : Body) : Prop where
  state : b.state.keys ⊆ b.declared
  refs : b.refs.keys ⊆ b.declared
  derived : ∀ e ∈ b.derived.entries, e.1 = e.2.name

/-- More declared names. -/
theorem Keyed.declare (h : Keyed b) (names reactive : List String) :
    Keyed { b with declared := b.declared ++ names, reactive } where
  state := Subset.trans h.state (subset_append_left _ _)
  refs := Subset.trans h.refs (subset_append_left _ _)
  derived := h.derived

/-- An owner with declared names. -/
theorem Keyed.enter (h : Keyed b) {o : Owner} (hnames : o.names src ⊆ b.declared) :
    Keyed (o.enter b) := by
  cases o with
  | props p => exact h
  | consumer u => exact { h with }
  | snippet s => exact { h with }
  | statement l => exact { h with }
  | state s =>
    refine { h with state := fun k hk => ?_ }
    rcases Table.mem_keys_insert.1 hk with rfl | hk
    · exact hnames mem_cons_self
    · exact h.state hk
  | ref r =>
    refine { h with refs := fun k hk => ?_ }
    rcases Table.mem_keys_insert.1 hk with rfl | hk
    · exact hnames mem_cons_self
    · exact h.refs hk
  | derived d =>
    refine { h with derived := fun e he => ?_ }
    rcases Table.mem_entries_of_insert he with rfl | he
    · rfl
    · exact h.derived e he

/-- Entries keep the names that they are found by. -/
theorem Keyed.move (h : Keyed b) (hmove : Move src patterns b b') : Keyed b' := by
  cases hmove with
  | report r => exact { h with }
  | effect e => exact { h with }
  | keep l => exact { h.declare l.names b.reactive with }
  | claim o => exact (h.declare _ _).enter (subset_append_right _ _)

/-- A new owner pushes no other out. -/
theorem steadyNodes_subset_enter (hkeyed : Keyed b) {o : Owner}
    (fresh : ∀ x ∈ o.names src, x ∉ b.declared) : b.steadyNodes ⊆ (o.enter b).steadyNodes := by
  intro n hn
  simp only [Body.steadyNodes, mem_append] at hn ⊢
  cases o with
  | props p => exact hn
  | derived d => exact hn
  | consumer u =>
    simp only [Owner.enter, map_append, mem_append]
    grind
  | snippet s =>
    simp only [Owner.enter, map_append, mem_append]
    grind
  | statement l =>
    simp only [Owner.enter, map_append, mem_append]
    grind
  | state s =>
    -- The name of the cell is free, so the new cell takes the place of none.
    have new : s.name ∉ b.state.keys := fun hk => fresh _ mem_cons_self (hkeyed.state hk)
    have kept := map_subset (·.node) (Table.values_subset_insert new s)
    simp only [Owner.enter]
    grind
  | ref r =>
    have new : r.name ∉ b.refs.keys := fun hk => fresh _ mem_cons_self (hkeyed.refs hk)
    have kept := map_subset RefBinding.node
      (filter_subset (fun r => !r.isForwarded) (Table.values_subset_insert new r))
    simp only [Owner.enter]
    grind

/-- A derived value gives way to another under the same text only if the names of that one are
free. -/
theorem Noted.enterDerived (h : Noted src n b) (hkeyed : Keyed b) {d : DerivedBinding}
    (fresh : ∀ x ∈ d.names, x ∉ b.declared) : Noted src n ((Owner.derived d).enter b) := by
  cases h with
  | entry mem => exact .entry mem
  | erased call kind reported => exact .erased call kind reported
  | @derived p d' name declared mem text own =>
    obtain ⟨e, he, rfl⟩ := mem_map.1 mem
    by_cases hkey : e.1 = d.name
    · -- The new value takes the place of this one, whose names were declared before.
      have same : d.name = src.text p := by
        rw [← hkey, hkeyed.derived e he]
        exact text
      refine .derived name declared (Table.mem_values_insert_self _ _ _) same (.inr ?_)
      intro x hx hbound
      exact fresh x hx (declared hbound)
    · have kept := mem_map_of_mem (f := Prod.snd)
        (Table.mem_entries_insert_of_ne (v := d) he hkey)
      exact .derived name declared kept text own

/-- What is noted stays noted when an owner enters. -/
theorem Noted.enter (h : Noted src n b) (hkeyed : Keyed b) {o : Owner}
    (fresh : ∀ x ∈ o.names src, x ∉ b.declared) : Noted src n (o.enter b) := by
  have steady := steadyNodes_subset_enter hkeyed fresh
  cases o with
  | derived d => exact h.enterDerived hkeyed fresh
  | _ => exact h.mono steady (Subset.refl _) (Subset.refl _) (Subset.refl _)

/-- What is declared does not depend on what is entered. -/
theorem enter_declare (o : Owner) (b : Body) (declared reactive : List String) :
    o.enter { b with declared, reactive } = { o.enter b with declared, reactive } := by
  cases o <;> rfl

/-- An owner that enters declares nothing. -/
theorem declared_enter (o : Owner) (b : Body) : (o.enter b).declared = b.declared := by
  cases o <;> rfl

/-- **Step.** What is noted stays noted. -/
theorem Noted.move (h : Noted src n b) (hkeyed : Keyed b) (hmove : Move src patterns b b') :
    Noted src n b' := by
  cases hmove with
  | report r =>
    exact h.mono (Subset.refl _) (Subset.refl _) (Subset.refl _) (subset_append_left _ _)
  | effect e =>
    refine h.mono (fun x hx => ?_) (Subset.refl _) (Subset.refl _) (Subset.refl _)
    simp only [Body.steadyNodes, map_append, mem_append] at hx ⊢
    grind
  | keep l =>
    refine h.mono (fun x hx => ?_) (Subset.refl _) (subset_append_left _ _) (Subset.refl _)
    simp only [Body.steadyNodes, map_append, mem_append] at hx ⊢
    grind
  | claim o fresh bound =>
    rw [enter_declare]
    refine (h.enter hkeyed fresh).mono (Subset.refl _) (Subset.refl _) ?_ (Subset.refl _)
    rw [declared_enter]
    exact subset_append_left _ _

/-- **Run.** Whatever is read later, entries stay under their names and what is noted stays
noted. -/
theorem Keyed.moves (h : Keyed b) (hmoves : Moves src patterns b b') :
    Keyed b' ∧ ∀ n, Noted src n b → Noted src n b' := by
  induction hmoves with
  | refl => exact ⟨h, fun n hn => hn⟩
  | tail _ hmove ih => exact ⟨ih.1.move hmove, fun n hn => (ih.2 n hn).move ih.1 hmove⟩

/-- The first body has no entries. -/
theorem keyed_bodyOfProps (props : ComponentProps) (contexts : Table ContextDefinition)
    (reports : List Report) : Keyed { bodyOfProps props contexts with reports } where
  state := nil_subset _
  refs := Subset.trans (keys_refs_bodyOfProps props contexts) (subset_append_left _ _)
  derived _ h := by cases h

/-- The refs that a component receives are no entries of its body. -/
theorem nodes_bodyOfProps (props : ComponentProps) (contexts : Table ContextDefinition)
    (reports : List Report) : Body.nodes { bodyOfProps props contexts with reports } = [] := by
  -- A body starts with the refs that the component is handed, and these are forwarded.
  have forwarded : ∀ (bs : List PropBinding) (t : Table RefBinding),
      (∀ r ∈ t.values, r.isForwarded = true) →
      ∀ r ∈ (bs.foldl (fun t b => t.insert b.visibleName
        { name := b.visibleName, node := b.node, isForwarded := true }) t).values,
        r.isForwarded = true := by
    intro bs
    induction bs with
    | nil => exact fun t h => h
    | cons b bs ih =>
      refine fun t h => ih _ fun r hr => ?_
      rcases Table.mem_values_of_insert hr with rfl | hr
      · rfl
      · exact h r hr
  have received := forwarded (props.bindings.filter (·.isBindable)) ∅ fun r hr => by cases hr
  have none : (bodyOfProps props contexts).refs.values.filter (!·.isForwarded) = [] :=
    filter_eq_nil_iff.2 fun r hr => by simpa using received r hr
  rw [Body.nodes, Body.steadyNodes, none]
  rfl

/-! ### Readers note what they read -/

/-- The step from one body to another notes the node, and adds entries for no other node. -/
structure Marks (src : Source) (n : Node) (b b' : Body) : Prop where
  noted : Noted src n b'
  nodes : b'.nodes ⊆ n :: b.nodes

/-- The entries stay the same. -/
def SameNodes (b b' : Body) : Prop := b'.nodes = b.nodes

instance : Std.Refl SameNodes := ⟨fun _ => rfl⟩

/-- A step that adds no entry may come first. -/
theorem marks_bind {α β : Type} {x : Reading α} {f : α → Reading β} (hx : Leads SameNodes x)
    (hf : ∀ {s a t}, x s = .ok a t → Leads (Marks src n) (f a)) :
    Leads (Marks src n) (x >>= f) := by
  intro b r b' h
  obtain ⟨a, b₁, h₁, h₂⟩ := bind_ok_iff.1 h
  have marks := hf h₁ h₂
  have same : b₁.nodes = b.nodes := hx h₁
  exact ⟨marks.noted, same ▸ marks.nodes⟩

/-- A step that adds no nodes may come first. -/
theorem marks_after {α β : Type} {x : Reading α} {f : α → Reading β} (hx : Leads SameNodes x)
    (hf : ∀ a, Leads (Marks src n) (f a)) : Leads (Marks src n) (x >>= f) :=
  marks_bind hx fun {_ a _} _ => hf a

/-- A report adds no node. -/
theorem sameNodes_report (severity : Severity) (code message : String) (n : Node)
    (construct : String) : Leads SameNodes (report src severity code message n construct) :=
  .modify fun _ => rfl

/-- Nor does a warning about what is not read. -/
theorem sameNodes_warnUnread (hook : HookCall) (function : Node) (deps : Option Node) :
    Leads SameNodes (warnUnread src hook function deps) := by
  unfold warnUnread
  dsimp only
  split
  · exact sameNodes_report _ _ _ _ _
  · exact .pure _

/-- A local statement notes its node. -/
theorem marks_addLocal (l : LocalDeclaration) : Leads (Marks src l.node) (addLocal l) := by
  refine .modify fun b => ⟨.entry ?_, fun x hx => ?_⟩
  · simp [Body.steadyNodes]
  · simp only [Body.nodes, Body.steadyNodes, map_append, map_singleton, mem_append, mem_cons,
      not_mem_nil, or_false] at hx ⊢
    grind

/-- The entry stands for the node. -/
def Owner.StandsFor (src : Source) (n : Node) : Owner → Prop
  | .props _ => False
  | .state s => s.node = n
  | .derived d =>
    d.node = n ∧ ∃ p, n.field? "name" = some p ∧ d.name = src.text p ∧ d.names = boundNames src p
  | .ref r => r.node = n ∧ r.isForwarded = false
  | .consumer u => u.node = n
  | .snippet s => s.node = n
  | .statement l => l.node = n

/-- An owner notes the node that it stands for. -/
theorem noted_enter {o : Owner} (h : o.StandsFor src n) (hnames : o.names src ⊆ b.declared) :
    Noted src n (o.enter b) := by
  cases o with
  | props p => exact h.elim
  | derived d =>
    obtain ⟨hnode, p, hname, htext, hbound⟩ := h
    refine .derived hname ?_ (Table.mem_values_insert_self _ _ _) htext (.inl hnode)
    exact hbound ▸ hnames
  | state s =>
    subst h
    have := mem_map_of_mem (f := StateBinding.node) (Table.mem_values_insert_self b.state s.name s)
    exact .entry (by simp [Body.steadyNodes, Owner.enter, this])
  | ref r =>
    -- Forwarded refs are not counted as entries, and this one is not forwarded.
    obtain ⟨rfl, hown⟩ := h
    have : r ∈ (b.refs.insert r.name r).values.filter (!·.isForwarded) :=
      mem_filter.2 ⟨Table.mem_values_insert_self _ _ _, by simp [hown]⟩
    have := mem_map_of_mem (f := RefBinding.node) this
    refine .entry ?_
    simp only [Body.steadyNodes, Owner.enter, mem_append]
    grind
  | consumer u =>
    subst h
    exact .entry (by simp [Body.steadyNodes, Owner.enter])
  | snippet s =>
    subst h
    exact .entry (by simp [Body.steadyNodes, Owner.enter])
  | statement l =>
    subst h
    exact .entry (by simp [Body.steadyNodes, Owner.enter])

/-- The nodes of the values of a table, after a value with the node is entered. -/
theorem map_values_insert_subset {α : Type} {node : α → Node} (t : Table α) (k : String) (v : α) :
    (t.insert k v).values.map node ⊆ node v :: t.values.map node := by
  intro x hx
  obtain ⟨w, hw, rfl⟩ := mem_map.1 hx
  rcases Table.mem_values_of_insert hw with rfl | hw
  · exact mem_cons_self
  · exact mem_cons_of_mem _ (mem_map_of_mem hw)

/-- It brings no other node. -/
theorem nodes_enter {o : Owner} (h : o.StandsFor src n) : (o.enter b).nodes ⊆ n :: b.nodes := by
  intro x hx
  simp only [Body.nodes, Body.steadyNodes, mem_cons, mem_append] at hx ⊢
  -- Each owner goes into one table or list, which gains at most the node of the owner.
  cases o with
  | props p => exact h.elim
  | state s =>
    have := @map_values_insert_subset _ StateBinding.node b.state s.name s x
    simp only [Owner.enter, Owner.StandsFor, mem_cons] at hx h this
    grind
  | derived d =>
    have := @map_values_insert_subset _ DerivedBinding.node b.derived d.name d x
    simp only [Owner.enter, Owner.StandsFor, mem_cons] at hx h this
    grind
  | ref r =>
    have : x ∈ ((b.refs.insert r.name r).values.filter (!·.isForwarded)).map RefBinding.node →
        x = r.node ∨ x ∈ (b.refs.values.filter (!·.isForwarded)).map RefBinding.node := by
      intro hx
      obtain ⟨w, hw, rfl⟩ := mem_map.1 hx
      obtain ⟨hw, hown⟩ := mem_filter.1 hw
      rcases Table.mem_values_of_insert hw with rfl | hw
      · exact .inl rfl
      · exact .inr (mem_map_of_mem (mem_filter.2 ⟨hw, hown⟩))
    simp only [Owner.enter, Owner.StandsFor] at hx h
    grind
  | consumer u =>
    simp only [Owner.enter, Owner.StandsFor, map_append, mem_append, map_singleton,
      mem_singleton] at hx h
    grind
  | snippet s =>
    simp only [Owner.enter, Owner.StandsFor, map_append, mem_append, map_singleton,
      mem_singleton] at hx h
    grind
  | statement l =>
    simp only [Owner.enter, Owner.StandsFor, map_append, mem_append, map_singleton,
      mem_singleton] at hx h
    grind

/-- The entry of an owner with these names that stands for the node. -/
def EntersFor (src : Source) (n : Node) (names : List String) (b b' : Body) : Prop :=
  ∃ o : Owner, o.StandsFor src n ∧ o.names src = names ∧ b' = o.enter b

/-- **Claim.** A claim notes its node in any case: if a name is taken, as a declaration that cannot
be converted. -/
theorem marks_claim {names reactive : List String} {k : Reading Unit}
    (hk : Leads (EntersFor src n names) k) :
    Leads (Marks src n) (do if ← declareFresh src names n reactive then k) := by
  intro b u b' h
  cases hfind : names.find? b.declared.contains with
  | some taken =>
    rw [claim_taken src k hfind] at h
    cases h
    refine ⟨.entry (by simp [Body.steadyNodes, duplicateDeclaration]), fun x hx => ?_⟩
    simp only [Body.nodes, Body.steadyNodes, duplicateDeclaration, map_append, map_singleton,
      mem_append, mem_cons, not_mem_nil, or_false] at hx ⊢
    grind
  | none =>
    obtain ⟨ok, b₁, h₁, h₂⟩ := bind_ok_iff.1 h
    rw [declareFresh_free src hfind] at h₁
    cases h₁
    obtain ⟨o, hstands, rfl, rfl⟩ := hk h₂
    exact ⟨noted_enter hstands (subset_append_right _ _), nodes_enter hstands⟩

/-- A statement that is bound notes its node. -/
theorem marks_bindStatement (l : LocalDeclaration) :
    Leads (Marks src l.node) (bindStatement src l) :=
  marks_claim <| .modify fun _ => ⟨.statement l, rfl, rfl, rfl⟩

/-- A snippet notes its node. -/
theorem marks_bindSnippet {names : List String} {s : SnippetSource} (h : names = [s.name]) :
    Leads (Marks src s.node) (bindSnippet src names s) :=
  marks_claim <| .modify fun _ => ⟨.snippet s, rfl, h.symm, rfl⟩

/-- A derived value notes its declarator. -/
theorem marks_bindDerived {d : DerivedBinding} {p : Node} (hname : d.node.field? "name" = some p)
    (htext : d.name = src.text p) (hnames : d.names = boundNames src p) :
    Leads (Marks src d.node) (bindDerived src d) :=
  marks_claim <| .modify fun _ => ⟨.derived d, ⟨rfl, p, hname, htext, hnames⟩, rfl, rfl⟩

/-- A cell of state notes its declarator. -/
theorem marks_bindState (s : StateBinding) : Leads (Marks src s.node) (bindState src s) :=
  marks_claim <| .modify fun _ => ⟨.state s, rfl, rfl, rfl⟩

section Declarators

variable {declarator pattern : Node}

theorem marks_readState (hook : HookCall) (keyword : String) :
    Leads (Marks src declarator) (readState src hook declarator pattern keyword) := by
  unfold readState
  split
  case h_1 name setter hcell _ =>
    refine marks_claim ?_
    let cell (isLazy : Bool) : StateBinding :=
      { name, node := declarator, kind := .plain, initial := hook.argument? 0, setter
        typeArguments := hook.typeArguments, isLazy }
    have entered (isLazy : Bool) :
        Leads (EntersFor src declarator (name :: (nonEmpty? setter).toList))
          (modify fun b => { b with state := b.state.insert name (cell isLazy) } : Reading Unit) :=
      .modify fun _ => ⟨.state (cell isLazy), rfl, stateNames_of_no_dispatch rfl, rfl⟩
    dsimp only
    split
    · exact .after (.need _) fun value => .after (.pure _) entered
    · exact .after (.pure _) entered
  case h_2 => exact marks_addLocal _

theorem marks_readReducer (hook : HookCall) (keyword : String) :
    Leads (Marks src declarator) (readReducer src hook declarator pattern keyword) := by
  unfold readReducer
  split
  case h_1 =>
    refine .after (.need _) fun inner => ?_
    dsimp only
    split
    · exact marks_after (sameNodes_report _ _ _ _ _) fun _ => marks_bindState _
    · exact marks_bindState _
  case h_2 => exact marks_addLocal _

theorem marks_readMemo (hname : declarator.field? "name" = some pattern) (hook : HookCall)
    (keyword : String) :
    Leads (Marks src declarator) (readMemo src hook declarator pattern keyword) := by
  unfold readMemo
  dsimp only
  split
  · exact marks_addLocal _
  · refine .after (.need _) fun inner => ?_
    split
    · exact marks_after (sameNodes_warnUnread _ _ _) fun _ => marks_bindDerived hname rfl rfl
    split
    · exact marks_after (sameNodes_report _ _ _ _ _) fun _ => marks_bindDerived hname rfl rfl
    · exact marks_bindDerived hname rfl rfl

theorem marks_readCallback (hook : HookCall) (keyword : String) :
    Leads (Marks src declarator) (readCallback src hook declarator pattern keyword) := by
  unfold readCallback
  dsimp only
  split
  · refine .after (.need _) fun inner => ?_
    split
    · exact .after (.need _) fun _ => marks_after (sameNodes_warnUnread _ _ _) fun _ =>
        marks_bindStatement _
    · exact marks_bindStatement _
  · exact marks_addLocal _

theorem marks_readContext (hook : HookCall) (keyword : String) :
    Leads (Marks src declarator) (readContext src hook declarator pattern keyword) := by
  unfold readContext
  dsimp only
  split
  · exact marks_addLocal _
  · refine .after (.need _) fun inner => ?_
    have consumed (key : String) : Leads (Marks src declarator) (do
        if ← declareFresh src (boundNames src pattern) declarator [] then
          modify fun b => { b with
            consumers := b.consumers ++
              [{ key, direction := .consume, node := declarator, binding := some pattern
                 defaultValue := (b.contextDefinitions.get? key).bind (·.defaultValue) }] }) :=
      marks_claim <| .modify fun b => by
        refine ⟨.consumer _, ?_, rfl, rfl⟩
        rfl
    split
    · exact marks_after (sameNodes_report _ _ _ _ _) fun _ => consumed _
    · exact consumed _

theorem marks_readRef (hook : HookCall) (keyword : String) :
    Leads (Marks src declarator) (readRef src hook declarator pattern keyword) := by
  unfold readRef
  dsimp only
  split
  case isTrue h =>
    rw [boundNames_identifier h]
    exact marks_claim <| .modify fun b =>
      ⟨.ref { name := src.text pattern, node := declarator, initial := hook.argument? 0
              typeArguments := hook.typeArguments }, ⟨rfl, rfl⟩, rfl, rfl⟩
  case isFalse => exact marks_addLocal _

/-- Whatever the hook, its declarator is noted. -/
theorem marks_readHook (hname : declarator.field? "name" = some pattern) (hook : HookCall)
    (keyword : String) :
    Leads (Marks src declarator) (readHook src hook declarator pattern keyword) := by
  unfold readHook
  dsimp only
  split
  · exact marks_readState _ _
  · exact marks_readReducer _ _
  · exact marks_readMemo hname _ _
  · exact marks_readCallback _ _
  · exact marks_readContext _ _
  · exact marks_readRef _ _
  · exact marks_bindStatement _
  · exact marks_after (sameNodes_report _ _ _ _ _) fun _ => marks_bindStatement _
  all_goals exact marks_addLocal _

/-- A declarator without a hook is noted. -/
theorem marks_readValue (hname : declarator.field? "name" = some pattern) (value : Node)
    (keyword : String) :
    Leads (Marks src declarator) (readValue src declarator pattern value keyword) := by
  unfold readValue
  dsimp only
  refine .after (.need _) fun inner => ?_
  split
  case isTrue h =>
    rw [Bool.and_eq_true] at h
    exact marks_bindSnippet (boundNames_identifier h.2)
  case isFalse =>
    split
    · split
      case h_1 h => exact marks_bindSnippet (boundNames_identifier h)
      case h_2 => exact marks_addLocal _
    split
    · exact marks_addLocal _
    · refine .after .get fun b => ?_
      split
      · exact marks_bindDerived hname rfl rfl
      · exact marks_bindStatement _

/-- A declarator with a name is noted. -/
theorem marks_readDeclarator (hname : declarator.field? "name" = some pattern)
    (keyword : String) : Leads (Marks src declarator) (readDeclarator src keyword declarator) := by
  unfold readDeclarator
  rw [hname]
  dsimp only
  refine .after (.lift _) fun hook => ?_
  split
  · exact marks_readHook hname _ _
  · exact marks_readValue hname _ _
  · exact marks_bindStatement _

end Declarators

/-- A function declaration is noted. -/
theorem marks_readFunction (statement : Node) :
    Leads (Marks src statement) (readFunction src statement) := by
  unfold readFunction
  dsimp only
  split
  · split
    case h_1 h =>
      rw [h]
      exact marks_bindSnippet rfl
    case h_2 => exact marks_addLocal _
  · exact marks_bindStatement _

/-- An effect is noted. -/
theorem marks_readEffect (hook : HookCall) (statement : Node) :
    Leads (Marks src statement) (readEffect src hook statement) := by
  unfold readEffect
  split
  · exact marks_addLocal _
  · -- The remarks leave the nodes as they are; the entry of the effect comes last.
    refine marks_after ?_ fun _ => .after (.need _) fun inner =>
      marks_after ?_ fun _ => marks_after ?_ fun _ => ?_
    · unfold warnComputedList
      split
      · split
        · exact sameNodes_report _ _ _ _ _
        · exact .pure _
      · exact .pure _
    · unfold remarkCallback
      split
      · exact sameNodes_warnUnread _ _ _
      split
      all_goals exact sameNodes_report _ _ _ _ _
    · unfold remarkEveryUpdate
      split
      · exact sameNodes_report _ _ _ _ _
      · exact .pure _
    · refine .modify fun b => ⟨.entry (by simp [Body.steadyNodes, effectOf]), fun x hx => ?_⟩
      simp only [Body.nodes, Body.steadyNodes, effectOf, map_append, map_singleton, mem_append,
        mem_cons, not_mem_nil, or_false] at hx ⊢
      grind

/-- A statement that is kept is noted. -/
theorem marks_keepStatement (statement : Node) :
    Leads (Marks src statement) (keepStatement statement) := by
  unfold keepStatement
  split
  all_goals exact marks_addLocal _

/-- An expression statement is noted; a call that has no counterpart by a report only. -/
theorem marks_readExpression (statement : Node) :
    Leads (Marks src statement) (readExpression src statement) := by
  unfold readExpression
  refine marks_bind (.lift _) fun {_ _ _} hcall => ?_
  have hcall := (lift_ok_iff.1 hcall).1
  split
  · exact marks_keepStatement _
  split
  · exact marks_readEffect _ _
  · exact marks_readEffect _ _
  · refine .modify fun b => ⟨.erased hcall ‹_› ?_, subset_cons_self _ _⟩
    exact mem_append_right _ (mem_singleton.2 rfl)
  · exact marks_after (sameNodes_report _ _ _ _ _) fun _ => marks_addLocal _
  · exact marks_addLocal _
  · exact marks_addLocal _

/-! ### Statements -/

/-- Entries stay under their names, and what is noted stays noted. -/
def Keeps (src : Source) (b b' : Body) : Prop :=
  Keyed b → Keyed b' ∧ ∀ n, Noted src n b → Noted src n b'

/-- The step from one body to another notes all the places, and adds entries for no others. -/
structure Records (src : Source) (places : List Node) (b b' : Body) : Prop where
  keeps : Keeps src b b'
  noted : Keyed b → ∀ n ∈ places, Noted src n b'
  nodes : b'.nodes ⊆ places ++ b.nodes

namespace Records

variable {places places' : List Node} {b₁ : Body}

/-- Nothing is read. -/
theorem refl (src : Source) (b : Body) : Records src [] b b where
  keeps h := ⟨h, fun _ hn => hn⟩
  noted _ _ h := by cases h
  nodes := Subset.refl _

/-- One statement after another. -/
theorem trans (h : Records src places b b₁) (h' : Records src places' b₁ b') :
    Records src (places ++ places') b b' where
  keeps hkeyed := by
    obtain ⟨hkeyed₁, kept⟩ := h.keeps hkeyed
    obtain ⟨hkeyed', kept'⟩ := h'.keeps hkeyed₁
    exact ⟨hkeyed', fun n hn => kept' n (kept n hn)⟩
  noted hkeyed n hn := by
    have hkeyed₁ := (h.keeps hkeyed).1
    rcases mem_append.1 hn with hn | hn
    · exact (h'.keeps hkeyed₁).2 n (h.noted hkeyed n hn)
    · exact h'.noted hkeyed₁ n hn
  nodes := by
    intro n hn
    have := @h.nodes n
    have := h'.nodes hn
    simp only [mem_append] at *
    grind

/-- One place is read. -/
theorem of_marks (hkeeps : Keeps src b b') (h : Marks src n b b') : Records src [n] b b' where
  keeps := hkeeps
  noted _ _ hm := mem_singleton.1 hm ▸ h.noted
  nodes := h.nodes

end Records

/-- No reader takes back what is noted. -/
theorem keeps_of_changes {places : List Node} (h : Changes src patterns places b b') :
    Keeps src b b' := by
  intro hkeyed
  have moves : Moves src patterns b b' := h.lift id fun _ _ hchange => hchange.move
  exact hkeyed.moves moves

/-- The places of a statement that have entries: its declarators with a name, or else the statement
itself. -/
def entryPlaces (s : Node) : List Node :=
  if isVariableDeclaration s then (readPlaces s).filter fun d => (d.field? "name").isSome else [s]

/-- A declarator records itself, if it has a name. -/
theorem records_readDeclarator {d : Node} (hkind : d.kind = "variable_declarator")
    (keyword : String) :
    Leads (Records src ([d].filter fun d => (d.field? "name").isSome))
      (readDeclarator src keyword d) := by
  intro b u b' hrun
  have changes : Changes src (d.field? "name").toList [d] b b' :=
    leads_readDeclarator keyword
      (fun p hp => ⟨mem_singleton.2 rfl, hkind, hp, by simp [hp]⟩) hrun
  have kept := keeps_of_changes changes
  cases hname : d.field? "name" with
  | none =>
    -- Nothing is read of a declarator without a name.
    unfold readDeclarator at hrun
    rw [hname] at hrun
    cases hrun
    simpa [hname] using Records.refl src b
  | some pattern =>
    simpa [hname] using Records.of_marks kept (marks_readDeclarator hname keyword hrun)

/-- Declarators are recorded in turn. -/
theorem records_declarators {ds : List Node} (hkinds : ∀ d ∈ ds, d.kind = "variable_declarator")
    (keyword : String) :
    Leads (Records src (ds.filter fun d => (d.field? "name").isSome))
      (ds.forM (readDeclarator src keyword)) := by
  induction ds with
  | nil =>
    intro b u b' hrun
    cases hrun
    exact Records.refl src b
  | cons d ds ih =>
    intro b u b' hrun
    obtain ⟨_, b₁, hfirst, hrest⟩ := bind_ok_iff.1 hrun
    have first := records_readDeclarator (hkinds d mem_cons_self) keyword hfirst
    have rest := ih (fun e he => hkinds e (mem_cons_of_mem _ he)) hrest
    rw [show d :: ds = [d] ++ ds from rfl, filter_append]
    exact first.trans rest

/-- A statement is noted at all its places. -/
theorem records_readStatement (s : Node) :
    Leads (Records src (entryPlaces s)) (readStatement src s) := by
  intro b u b' hrun
  have kept : Keeps src b b' :=
    keeps_of_changes (leads_readStatement (fun _ hp => hp) (fun _ hn => hn) hrun)
  revert hrun
  unfold readStatement entryPlaces
  split
  · rename_i hdeclaration
    rw [readPlaces, if_pos hdeclaration]
    exact fun hrun => records_declarators (fun d hd => eq_of_beq (mem_filter.1 hd).2) _ hrun
  · split
    · exact fun hrun => .of_marks kept (marks_readFunction s hrun)
    split
    · exact fun hrun => .of_marks kept (marks_readExpression s hrun)
    split
    · exact fun hrun => .of_marks kept (marks_addLocal _ hrun)
    · exact fun hrun => .of_marks kept (marks_keepStatement s hrun)

/-- **Run.** Reading statements notes the places of all statements that are read, and of no
others. -/
theorem records_readStatements (statements : List Node) :
    Leads (Records src ((readBefore statements).flatMap entryPlaces))
      (readStatements src statements) := by
  induction statements with
  | nil =>
    intro b ends b' hrun
    cases hrun
    exact Records.refl src b
  | cons s rest ih =>
    intro b ends b' hrun
    rw [readStatements] at hrun
    rw [readBefore]
    by_cases hreturn : (s.kind == "return_statement") = true
    · rw [if_pos hreturn] at hrun ⊢
      cases hrun
      exact Records.refl src b
    rw [if_neg hreturn] at hrun ⊢
    cases hchain : returnChain? s with
    | none =>
      rw [hchain] at hrun
      obtain ⟨_, b₁, hfirst, hrest⟩ := bind_ok_iff.1 hrun
      exact (records_readStatement s hfirst).trans (ih hrest)
    | some chain =>
      rw [hchain] at hrun
      dsimp only at hrun ⊢
      by_cases hterminal : chain.isTerminal = true
      · rw [if_pos hterminal] at hrun ⊢
        cases hrun
        exact Records.refl src b
      · -- An early return has no entry; its branches go into the render tree.
        rw [if_neg hterminal] at hrun ⊢
        obtain ⟨_, b₁, hrest, hpure⟩ := bind_ok_iff.1 hrun
        cases hpure
        exact ih hrest

end Sveltify.Analysis
