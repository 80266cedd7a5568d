import Mathlib.Data.List.Perm.Subperm
import Sveltify.Analysis.Component
import Sveltify.Proofs.Analysis.Reading
import Sveltify.Proofs.Syntax.Tree

namespace Sveltify.Analysis

open Text Scope Component Render List

/-!
# Every name has one owner

While a body is read, no two entries come to share a name.

* `owners`: the entries of a body that have names of their own, the props among them;
* `Owned`: they share no name, and their names are declared. Each move keeps this (`Owned.move`),
  hence so does a run (`Owned.moves`);
* `Tracked`: the reactive names are those of the props, the state and the derived values. This one
  needs that equal patterns bind equal names, since derived values are kept under the texts of
  their patterns;
* `single_ownership`: both for the body that is read from any props and statements.
-/

/-- The entries of a body with names of their own, behind the props. A forwarded ref is one of the
props, and what cannot be converted has no names. -/
def owners (props : ComponentProps) (b : Body) : List Owner :=
  .props props :: (b.state.values.map .state ++ b.derived.values.map .derived
    ++ (b.refs.values.filter (!·.isForwarded)).map .ref
    ++ b.consumers.map .consumer ++ b.snippets.map .snippet
    ++ (b.locals.filter (·.kind != .unsupported)).map .statement)

/-! ### Entering an owner -/

/-- An entry is new or takes the place of another. -/
theorem values_insert_subperm {α : Type} (t : Table α) (k : String) (v : α) :
    (t.insert k v).values <+~ v :: t.values := by
  obtain ⟨es⟩ := t
  induction es with
  | nil => exact Subperm.refl _
  | cons e es ih =>
    simp only [Table.insert, Table.values] at ih ⊢
    by_cases hk : e.1 = k
    · rw [Table.insertEntry, if_pos hk]
      exact (Sublist.cons_cons _ (sublist_cons_self _ _)).subperm
    · rw [Table.insertEntry, if_neg hk]
      exact (subperm_cons _ |>.2 ih).trans (Perm.swap _ _ _).subperm

theorem subperm_before {α : Type} {o : α} {as as' : List α} (bs : List α)
    (h : as' <+~ o :: as) : as' ++ bs <+~ o :: (as ++ bs) :=
  (subperm_append_right bs).2 h

theorem subperm_behind {α : Type} {o : α} {bs bs' : List α} (as : List α)
    (h : bs' <+~ o :: bs) : as ++ bs' <+~ o :: (as ++ bs) :=
  ((subperm_append_left as).2 h).trans perm_middle.subperm

theorem map_snoc_subperm {α β : Type} (f : α → β) (as : List α) (a : α) :
    (as ++ [a]).map f <+~ f a :: as.map f := by
  rw [map_append, map_singleton]
  exact (perm_append_singleton _ _).subperm

/-- Entering an owner adds no other. -/
theorem owners_enter (props : ComponentProps) (o : Owner) (b : Body) :
    owners props (o.enter b) <+~ o :: owners props b := by
  -- Each owner has a place of its own among the six parts behind the props.
  cases o with
  | props p => exact (sublist_cons_self _ _).subperm
  | state s =>
    have cells := (values_insert_subperm b.state s.name s).map
      (f := Owner.state) fun _ _ => Owner.state.inj
    exact subperm_behind [_] <| subperm_before _ <| subperm_before _ <| subperm_before _ <|
      subperm_before _ <| subperm_before _ cells
  | derived d =>
    have derived := (values_insert_subperm b.derived d.name d).map
      (f := Owner.derived) fun _ _ => Owner.derived.inj
    exact subperm_behind [_] <| subperm_before _ <| subperm_before _ <| subperm_before _ <|
      subperm_before _ <| subperm_behind _ derived
  | ref r =>
    have own : (b.refs.insert r.name r).values.filter (!·.isForwarded)
        <+~ r :: b.refs.values.filter (!·.isForwarded) := by
      refine ((values_insert_subperm b.refs r.name r).filter _).trans ?_
      rw [filter_cons]
      split
      · exact Subperm.refl _
      · exact (sublist_cons_self _ _).subperm
    exact subperm_behind [_] <| subperm_before _ <| subperm_before _ <| subperm_before _ <|
      subperm_behind _ <| own.map (f := Owner.ref) fun _ _ => Owner.ref.inj
  | consumer u =>
    exact subperm_behind [_] <| subperm_before _ <| subperm_before _ <| subperm_behind _ <|
      map_snoc_subperm _ _ u
  | snippet s =>
    exact subperm_behind [_] <| subperm_before _ <| subperm_behind _ <| map_snoc_subperm _ _ s
  | statement l =>
    have kept : ((b.locals ++ [l]).filter (·.kind != .unsupported)).map Owner.statement
        <+~ .statement l :: (b.locals.filter (·.kind != .unsupported)).map .statement := by
      rw [filter_append, filter_singleton, cond_eq_ite]
      split
      · exact map_snoc_subperm _ _ l
      · rw [append_nil]
        exact (sublist_cons_self _ _).subperm
    exact subperm_behind [_] <| subperm_behind _ kept

/-! ### The invariant -/

/-- No two owners share a name, and the names of all are declared. -/
structure Owned (src : Source) (props : ComponentProps) (b : Body) : Prop where
  disjoint : (owners props b).Pairwise fun o o' => (o.names src).Disjoint (o'.names src)
  declared : ∀ o ∈ owners props b, o.names src ⊆ b.declared

namespace Owned

variable {src : Source} {patterns : List Node} {props : ComponentProps} {b b' : Body}

/-- More names may be declared while the owners stay. -/
theorem mono (h : Owned src props b) (same : owners props b' = owners props b)
    (more : b.declared ⊆ b'.declared) : Owned src props b' := by
  constructor
  · rw [same]
    exact h.disjoint
  · intro o ho
    rw [same] at ho
    exact List.Subset.trans (h.declared o ho) more

/-- An owner of fresh names may enter. -/
theorem enter (h : Owned src props b) {o : Owner} (fresh : ∀ x ∈ o.names src, x ∉ b.declared)
    (reactive : List String) :
    Owned src props
      (o.enter { b with declared := b.declared ++ o.names src, reactive }) := by
  have entered := owners_enter props o { b with declared := b.declared ++ o.names src, reactive }
  have hdeclared : (o.enter { b with declared := b.declared ++ o.names src, reactive }).declared
      = b.declared ++ o.names src := by cases o <;> rfl
  constructor
  · obtain ⟨os, hperm, hsub⟩ := entered
    refine (hperm.pairwise_iff disjoint_symm).1 (Pairwise.sublist hsub ?_)
    refine pairwise_cons.2 ⟨?_, h.disjoint⟩
    intro o' ho' x hx hx'
    exact fresh x hx (h.declared o' ho' hx')
  · intro o' ho'
    rw [hdeclared]
    rcases mem_cons.1 (entered.subset ho') with rfl | hold
    · exact subset_append_right _ _
    · exact List.Subset.trans (h.declared o' hold) (subset_append_left _ _)

/-- **Step.** A move keeps every name with one owner. -/
theorem move (h : Owned src props b) (hmove : Move src patterns b b') : Owned src props b' := by
  cases hmove with
  | report r => exact h.mono rfl (Subset.refl _)
  | effect e => exact h.mono rfl (Subset.refl _)
  | claim o fresh _ => exact h.enter fresh _
  | keep l hl =>
    rcases hl with hkind | hnames
    · refine h.mono ?_ (subset_append_left _ _)
      simp [owners, filter_append, hkind]
    · exact h.enter (o := .statement l) (by simp [Owner.names, hnames]) b.reactive

/-- **Run.** So do any number of moves. -/
theorem moves (h : Owned src props b) (hmoves : Moves src patterns b b') :
    Owned src props b' := by
  induction hmoves with
  | refl => exact h
  | tail _ hmove ih => exact ih.move hmove

/-- A cell of state and a derived value have no name in common. -/
theorem state_disjoint_derived (h : Owned src props b) :
    (b.state.values.map (·.name)).Disjoint (b.derived.values.flatMap (·.names)) := by
  intro x hx hx'
  obtain ⟨s, hs, rfl⟩ := mem_map.1 hx
  obtain ⟨d, hd, hname⟩ := mem_flatMap.1 hx'
  have rest := (pairwise_cons.1 h.disjoint).2
  simp only [append_assoc] at rest
  have apart := (pairwise_append.1 rest).2.2 (.state s) (mem_map_of_mem hs) (.derived d)
    (mem_append_left _ (mem_map_of_mem hd))
  exact apart mem_cons_self hname

end Owned

/-! ### Reactive names -/

/-- Patterns with the same text bind the same names. -/
def PatternsAgree (src : Source) (patterns : List Node) : Prop :=
  ∀ p ∈ patterns, ∀ q ∈ patterns, src.text p = src.text q → boundNames src p = boundNames src q

/-- The reactive names are those of the props, the state and the derived values. -/
structure Tracked (src : Source) (patterns : List Node) (props : ComponentProps) (b : Body) :
    Prop where
  /-- State is kept under its name. -/
  state : ∀ e ∈ b.state.entries, e.1 = e.2.name
  /-- A derived value is kept under the text of the pattern that binds its names. -/
  derived : ∀ e ∈ b.derived.entries, ∃ p ∈ patterns,
    e.1 = src.text p ∧ e.2.names = boundNames src p
  reactive : ∀ x, x ∈ b.reactive ↔
    x ∈ (Owner.props props).reactive ∨ x ∈ b.state.keys ∨ ∃ e ∈ b.derived.entries, x ∈ e.2.names

namespace Tracked

variable {src : Source} {patterns : List Node} {props : ComponentProps} {b b' : Body}

/-- State that is new or declared again. -/
theorem insertState (h : Tracked src patterns props b) (s : StateBinding) (declared : List String) :
    Tracked src patterns props { b with
      state := b.state.insert s.name s, declared, reactive := b.reactive ++ [s.name] } := by
  refine ⟨fun e he => ?_, h.derived, fun x => ?_⟩
  · rcases Table.mem_entries_of_insert he with rfl | he
    · rfl
    · exact h.state e he
  · rw [mem_append, h.reactive, Table.mem_keys_insert, mem_singleton]
    simp only [or_assoc, or_comm, or_left_comm]

/-- A derived value that is new or declared again. -/
theorem insertDerived (h : Tracked src patterns props b) (hagree : PatternsAgree src patterns)
    {d : DerivedBinding} (hd : (Owner.derived d).IsBound src patterns) (declared : List String) :
    Tracked src patterns props { b with
      derived := b.derived.insert d.name d, declared, reactive := b.reactive ++ d.names } := by
  obtain ⟨p, hp, hname, hnames⟩ := hd
  refine ⟨h.state, fun e he => ?_, fun x => ?_⟩
  · rcases Table.mem_entries_of_insert he with rfl | he
    · exact ⟨p, hp, hname, hnames⟩
    · exact h.derived e he
  · -- A value that the new one replaces has the same names.
    have names : (∃ e ∈ (b.derived.insert d.name d).entries, x ∈ e.2.names) ↔
        x ∈ d.names ∨ ∃ e ∈ b.derived.entries, x ∈ e.2.names := by
      constructor
      · rintro ⟨e, he, hx⟩
        rcases Table.mem_entries_of_insert he with rfl | he
        · exact .inl hx
        · exact .inr ⟨e, he, hx⟩
      · rintro (hx | ⟨e, he, hx⟩)
        · exact ⟨_, Table.mem_entries_insert_self _ _ _, hx⟩
        · by_cases hkey : e.1 = d.name
          · obtain ⟨q, hq, hname', hnames'⟩ := h.derived e he
            have same := hagree q hq p hp (by rw [← hname', hkey, hname])
            refine ⟨_, Table.mem_entries_insert_self _ _ _, ?_⟩
            rwa [hnames, ← same, ← hnames']
          · exact ⟨e, Table.mem_entries_insert_of_ne he hkey, hx⟩
    rw [mem_append, h.reactive, names]
    simp only [or_comm, or_left_comm]

/-- **Step.** A move keeps the reactive names in step with the entries. -/
theorem move (h : Tracked src patterns props b) (hagree : PatternsAgree src patterns)
    (hmove : Move src patterns b b') : Tracked src patterns props b' := by
  cases hmove with
  | report r => exact ⟨h.state, h.derived, h.reactive⟩
  | effect e => exact ⟨h.state, h.derived, h.reactive⟩
  | keep l _ => exact ⟨h.state, h.derived, h.reactive⟩
  | claim o _ hbound =>
    cases o with
    | props p => exact hbound.elim
    | state s => exact h.insertState s _
    | derived d => exact h.insertDerived hagree hbound _
    | ref _ | consumer _ | snippet _ | statement _ =>
      exact ⟨h.state, h.derived, by simpa [Owner.enter, Owner.reactive] using h.reactive⟩

/-- **Run.** So do any number of moves. -/
theorem moves (h : Tracked src patterns props b) (hagree : PatternsAgree src patterns)
    (hmoves : Moves src patterns b b') : Tracked src patterns props b' := by
  induction hmoves with
  | refl => exact h
  | tail _ hmove ih => exact ih.move hagree hmove

/-- The names of the cells of state are the names they are kept under. -/
theorem map_name_state (h : Tracked src patterns props b) :
    b.state.values.map (·.name) = b.state.keys := by
  rw [Table.values, Table.keys, map_map]
  exact map_congr_left fun e he => (h.state e he).symm

end Tracked

/-! ### Declarations with a taken name -/

section Taken

/-- The body has gained remarks that are no errors, and nothing else. -/
def Remarked (b b' : Body) : Prop :=
  ∃ rs : List Report, (∀ r ∈ rs, r.severity ≠ .error) ∧
    b' = { b with reports := b.reports ++ rs }

instance : Std.Refl Remarked := ⟨fun b => ⟨[], by simp, by simp⟩⟩

instance : IsTrans Body Remarked where
  trans b b₁ b₂ := by
    rintro ⟨rs, hrs, rfl⟩ ⟨rs', hrs', rfl⟩
    refine ⟨rs ++ rs', fun r hr => ?_, by rw [append_assoc]⟩
    rcases mem_append.1 hr with hr | hr
    · exact hrs r hr
    · exact hrs' r hr

/-- What becomes of a declaration of the names `names` at the node `n`. -/
inductive Declared (src : Source) (n : Node) (names : List String) (b : Body) : Body → Prop
  /-- All names are free, and are declared. -/
  | fresh {b' : Body} (hfree : ∀ x ∈ names, x ∉ b.declared)
      (hdeclared : b'.declared = b.declared ++ names) : Declared src n names b b'
  /-- A name is taken. -/
  | taken {x : String} (hx : x ∈ names) (htaken : x ∈ b.declared) :
      Declared src n names b
        { b with reports := b.reports ++ [duplicateReport src n x]
                 locals := b.locals ++ [duplicateDeclaration n x] }
  /-- The declaration is refused, whether its names are free or not. -/
  | refused {l : LocalDeclaration} (hkind : l.kind = .unsupported) (hnode : l.node = n) :
      Declared src n names b
        { b with declared := b.declared ++ l.names, locals := b.locals ++ [l] }

/-- The step remarks on a declaration and then deals with its names. -/
def Declares (src : Source) (n : Node) (names : List String) (x : Reading Unit) : Prop :=
  ∀ ⦃b u b'⦄, x b = .ok u b' → ∃ b₁, Remarked b b₁ ∧ Declared src n names b₁ b'

variable {src : Source} {n : Node} {names : List String}

namespace Declares

/-- A claim followed by a step that declares nothing more. -/
theorem claim {reactive : List String} {k : Reading Unit}
    (hk : Leads (fun b b' => b'.declared = b.declared) k) :
    Declares src n names (do if ← declareFresh src names n reactive then k) := by
  intro b u b' hrun
  refine ⟨b, refl b, ?_⟩
  cases hfind : names.find? b.declared.contains with
  | some x =>
    rw [claim_taken src k hfind] at hrun
    cases hrun
    exact .taken (mem_of_find?_eq_some hfind) (by simpa using find?_some hfind)
  | none =>
    obtain ⟨ok, b₁, hfresh, hrest⟩ := bind_ok_iff.1 hrun
    rw [declareFresh_free src hfind] at hfresh
    cases hfresh
    exact .fresh (fun x hx => by simpa using find?_eq_none.1 hfind x hx) (hk hrest)

/-- A declaration that is refused is kept. -/
theorem refuse {l : LocalDeclaration} (hkind : l.kind = .unsupported) (hnode : l.node = n) :
    Declares src n names (addLocal l) := by
  intro b u b' hrun
  cases hrun
  exact ⟨b, refl b, .refused hkind hnode⟩

/-- Remarks come in front of the declaration. -/
theorem after {α : Type} {x : Reading α} {f : α → Reading Unit} (hx : Leads Remarked x)
    (hf : ∀ a, Declares src n names (f a)) : Declares src n names (x >>= f) := by
  intro b u b' hrun
  obtain ⟨a, b₁, h₁, h₂⟩ := bind_ok_iff.1 hrun
  obtain ⟨b₂, hremarked, hdeclared⟩ := hf a h₂
  exact ⟨b₂, trans_of Remarked (hx h₁) hremarked, hdeclared⟩

/-- If a name is taken, there is one error and one nameless statement that cannot be converted
beside the remarks, and nothing else, or the declaration is refused. -/
theorem of_taken {x : Reading Unit} (h : Declares src n names x) {b b' : Body} {u : Unit}
    (hrun : x b = .ok u b') {y : String} (hy : y ∈ names) (htaken : y ∈ b.declared) :
    ∃ rs : List Report, (∀ r ∈ rs, r.severity ≠ .error) ∧
      ((∃ taken ∈ names, taken ∈ b.declared ∧
        b' = { b with reports := b.reports ++ rs ++ [duplicateReport src n taken]
                      locals := b.locals ++ [duplicateDeclaration n taken] }) ∨
      ∃ l : LocalDeclaration, l.kind = .unsupported ∧ l.node = n ∧
        b' = { b with reports := b.reports ++ rs, declared := b.declared ++ l.names
                      locals := b.locals ++ [l] }) := by
  obtain ⟨_, ⟨rs, hrs, rfl⟩, hdeclared⟩ := h hrun
  refine ⟨rs, hrs, ?_⟩
  cases hdeclared with
  | fresh hfree _ => exact absurd htaken (hfree y hy)
  | taken hx hx' => exact .inl ⟨_, hx, hx', rfl⟩
  | refused hkind hnode => exact .inr ⟨_, hkind, hnode, rfl⟩

end Declares

/-- A report that is no error is a remark. -/
theorem remarked_report {severity : Severity} (h : severity ≠ .error) (code message : String)
    (n : Node) (construct : String) :
    Leads Remarked (report src severity code message n construct) :=
  .modify fun _ => ⟨[_], forall_mem_singleton.2 h, rfl⟩

/-- So is the warning about what is not read. -/
theorem remarked_warnUnread (hook : HookCall) (function : Node) (deps : Option Node) :
    Leads Remarked (warnUnread src hook function deps) := by
  unfold warnUnread
  dsimp only
  split
  · exact remarked_report (by simp) _ _ _ _
  · exact .pure _

/-- A statement declares its names. -/
theorem declares_bindStatement (l : LocalDeclaration) :
    Declares src l.node l.names (bindStatement src l) :=
  .claim (.modify fun _ => rfl)

/-- So does a snippet. -/
theorem declares_bindSnippet (names : List String) (s : SnippetSource) :
    Declares src s.node names (bindSnippet src names s) :=
  .claim (.modify fun _ => rfl)

/-- So does a derived value. -/
theorem declares_bindDerived (d : DerivedBinding) :
    Declares src d.node d.names (bindDerived src d) :=
  .claim (.modify fun _ => rfl)

/-- The names that a pattern `[cell, companion]` claims are among those that it binds. -/
theorem cell_subset {pattern : Node} {cell : String × Option String}
    (h : cellNames? src pattern = some cell) :
    cell.1 :: (nonEmpty? cell.2).toList ⊆ boundNames src pattern :=
  Subset.trans (cons_subset_cons _ (nonEmpty_toList_subset cell.2)) (cellNames_subset h)

variable (src) in
/-- The declarator claims some of the names that its pattern binds, and then deals with them. -/
def ClaimsSome (declarator pattern : Node) (x : Reading Unit) : Prop :=
  ∃ names, names ⊆ boundNames src pattern ∧ Declares src declarator names x

section Declarators

variable (hook : HookCall) (declarator pattern : Node) (keyword : String)

/-- State claims its name and its setter. -/
theorem claims_readState :
    ClaimsSome src declarator pattern (readState src hook declarator pattern keyword) := by
  unfold readState
  split
  case h_1 name setter hcell _ =>
    refine ⟨_, cell_subset hcell, .claim ?_⟩
    dsimp only
    split
    · exact .after (.need _) fun _ => .after (.pure _) fun _ => .modify fun _ => rfl
    · exact .after (.pure _) fun _ => .modify fun _ => rfl
  case h_2 => exact ⟨[], nil_subset _, .refuse rfl rfl⟩

/-- So does a reducer, with its dispatch function. -/
theorem claims_readReducer :
    ClaimsSome src declarator pattern (readReducer src hook declarator pattern keyword) := by
  unfold readReducer
  split
  case h_1 name dispatch reducer hcell _ =>
    refine ⟨_, cell_subset hcell, .after (.need _) fun inner => ?_⟩
    dsimp only
    split
    · exact .after (remarked_report (by simp) _ _ _ _) fun _ => .claim (.modify fun _ => rfl)
    · exact .claim (.modify fun _ => rfl)
  case h_2 => exact ⟨[], nil_subset _, .refuse rfl rfl⟩

/-- A memo claims all names of its pattern. -/
theorem claims_readMemo :
    ClaimsSome src declarator pattern (readMemo src hook declarator pattern keyword) := by
  refine ⟨_, Subset.refl _, ?_⟩
  unfold readMemo
  dsimp only
  split
  · exact .refuse rfl rfl
  · refine .after (.need _) fun inner => ?_
    split
    · exact .after (remarked_warnUnread _ _ _) fun _ => declares_bindDerived _
    · split
      · exact .after (remarked_report (by simp) _ _ _ _) fun _ => declares_bindDerived _
      · exact declares_bindDerived _

/-- So does a callback. -/
theorem claims_readCallback :
    ClaimsSome src declarator pattern (readCallback src hook declarator pattern keyword) := by
  refine ⟨_, Subset.refl _, ?_⟩
  unfold readCallback
  dsimp only
  split
  · refine .after (.need _) fun inner => ?_
    split
    · exact .after (.need _) fun _ => .after (remarked_warnUnread _ _ _) fun _ =>
        declares_bindStatement _
    · exact declares_bindStatement _
  · exact .refuse rfl rfl

/-- So does a context. -/
theorem claims_readContext :
    ClaimsSome src declarator pattern (readContext src hook declarator pattern keyword) := by
  refine ⟨_, Subset.refl _, ?_⟩
  unfold readContext
  dsimp only
  split
  · exact .refuse rfl rfl
  · refine .after (.need _) fun inner => ?_
    split
    · exact .after (remarked_report (by simp) _ _ _ _) fun _ => .claim (.modify fun _ => rfl)
    · exact .claim (.modify fun _ => rfl)

/-- So does a ref. -/
theorem claims_readRef :
    ClaimsSome src declarator pattern (readRef src hook declarator pattern keyword) := by
  refine ⟨_, Subset.refl _, ?_⟩
  unfold readRef
  dsimp only
  split
  · exact .claim (.modify fun _ => rfl)
  · exact .refuse rfl rfl

/-- Every hook claims names of its pattern. -/
theorem claims_readHook :
    ClaimsSome src declarator pattern (readHook src hook declarator pattern keyword) := by
  unfold readHook
  dsimp only
  cases hook.kind with
  | useState => exact claims_readState hook declarator pattern keyword
  | useReducer => exact claims_readReducer hook declarator pattern keyword
  | useMemo => exact claims_readMemo hook declarator pattern keyword
  | useCallback => exact claims_readCallback hook declarator pattern keyword
  | useContext => exact claims_readContext hook declarator pattern keyword
  | useRef => exact claims_readRef hook declarator pattern keyword
  | useId => exact ⟨_, Subset.refl _, declares_bindStatement _⟩
  | custom =>
    exact ⟨_, Subset.refl _, .after (remarked_report (by simp) _ _ _ _) fun _ =>
      declares_bindStatement _⟩
  | _ => exact ⟨[], nil_subset _, .refuse rfl rfl⟩

/-- A value that is no hook claims them all. -/
theorem declares_readValue (value : Node) :
    Declares src declarator (boundNames src pattern)
      (readValue src declarator pattern value keyword) := by
  unfold readValue
  refine .after (.need _) fun inner => ?_
  dsimp only
  split
  · exact declares_bindSnippet _ _
  · split
    · split
      · exact declares_bindSnippet _ _
      · exact .refuse rfl rfl
    · split
      · exact .refuse rfl rfl
      · -- What the names mean hangs on the state, but not which names they are.
        refine .after .get fun b => ?_
        split
        · exact declares_bindDerived _
        · exact declares_bindStatement _

/-- **Declarators.** The names that a declarator claims are some of those that its pattern binds. It
declares them all if they are free, and if one is taken it adds remarks, one error and one nameless
statement that cannot be converted, unless the declarator is refused for another reason. -/
theorem claims_readDeclarator (h : declarator.field? "name" = some pattern) :
    ClaimsSome src declarator pattern (readDeclarator src keyword declarator) := by
  unfold readDeclarator
  rw [h]
  dsimp only
  cases hmatch : Hook.match? src (declarator.field? "value") with
  | error f => exact ⟨[], nil_subset _, fun _ _ _ hrun => by cases hrun⟩
  | ok found =>
    cases found with
    | some hook =>
      obtain ⟨names, hnames, hdeclares⟩ : ClaimsSome src declarator pattern _ :=
        claims_readHook hook declarator pattern keyword
      exact ⟨names, hnames, fun _ _ _ hrun => hdeclares hrun⟩
    | none =>
      refine ⟨boundNames src pattern, Subset.refl _, ?_⟩
      cases declarator.field? "value" with
      | some value =>
        exact fun _ _ _ hrun => declares_readValue declarator pattern keyword value hrun
      | none => exact fun _ _ _ hrun => declares_bindStatement _ hrun

end Declarators

/-- **Functions.** So does a function declaration with its name. -/
theorem declares_readFunction (statement : Node) :
    Declares src statement ((statement.field? "name").map src.text).toList
      (readFunction src statement) := by
  unfold readFunction
  dsimp only
  split
  · split
    · rename_i returned name _ hname
      rw [hname]
      exact declares_bindSnippet _ _
    · exact .refuse rfl rfl
  · exact declares_bindStatement _

end Taken

/-! ### Whole bodies -/

section Run

variable {src : Source} {props : ComponentProps}

/-- At first, the props are the only owner. -/
theorem owners_bodyOfProps (contexts : Table ContextDefinition) :
    owners props (bodyOfProps props contexts) = [.props props] := by
  -- The refs at hand are all forwarded ones.
  have forwarded : ∀ (bs : List PropBinding) (t : Table RefBinding),
      (∀ r ∈ t.values, r.isForwarded = true) →
      ∀ r ∈ (bs.foldl (fun t b => t.insert b.visibleName
        { name := b.visibleName, node := b.node, isForwarded := true }) t).values,
        r.isForwarded = true := by
    intro bs
    induction bs with
    | nil => exact fun t h => h
    | cons b bs ih =>
      refine fun t h => ih _ fun r hr => ?_
      rcases Table.mem_values_of_insert hr with rfl | hr
      · rfl
      · exact h r hr
  have none : (bodyOfProps props contexts).refs.values.filter (!·.isForwarded) = [] := by
    refine filter_eq_nil_iff.2 fun r hr => ?_
    simp [forwarded _ ∅ (by simp [EmptyCollection.emptyCollection]) r hr]
  rw [owners, none]
  rfl

/-- At first the props own their names. -/
theorem owned_bodyOfProps (contexts : Table ContextDefinition) (reports : List Report) :
    Owned src props { bodyOfProps props contexts with reports } := by
  have only : owners props { bodyOfProps props contexts with reports } = [.props props] :=
    owners_bodyOfProps contexts
  constructor
  · rw [only]
    exact pairwise_singleton _ _
  · intro o ho
    rw [only, mem_singleton] at ho
    subst ho
    exact Subset.refl _

/-- At first only the props are reactive. -/
theorem tracked_bodyOfProps (patterns : List Node) (contexts : Table ContextDefinition)
    (reports : List Report) :
    Tracked src patterns props { bodyOfProps props contexts with reports } := by
  refine ⟨by simp [bodyOfProps, EmptyCollection.emptyCollection, Table.empty],
    by simp [bodyOfProps, EmptyCollection.emptyCollection, Table.empty], fun x => ?_⟩
  simp [bodyOfProps, EmptyCollection.emptyCollection, Table.empty, Table.keys, Owner.reactive]

/-- **Single ownership.** Whatever the props and the statements are, at the end no two owners share
a name and all their names are declared; the reactive names are those of the props, the state and
the derived values, if equal patterns bind equal names; no derived value has the name of a cell of
state; and a claim with a taken name, whatever it would have done, adds one error and one nameless
statement that cannot be converted, and nothing else. -/
theorem single_ownership (contexts : Table ContextDefinition) (reports : List Report)
    {statements : List Node} {returned : List ReturnChain × Option Node} {body : Body}
    (h : readStatements src statements { bodyOfProps props contexts with reports }
      = .ok returned body) :
    (owners props body).Pairwise (fun o o' => (o.names src).Disjoint (o'.names src)) ∧
    (∀ o ∈ owners props body, o.names src ⊆ body.declared) ∧
    (PatternsAgree src (statements.flatMap declaredPatterns) → ∀ x, x ∈ body.reactive ↔
      x ∈ props.bindings.map (·.visibleName) ∨ x ∈ nonEmpty? props.identifier ∨
        x ∈ body.state.values.map (·.name) ∨ x ∈ body.derived.values.flatMap (·.names)) ∧
    (body.state.values.map (·.name)).Disjoint (body.derived.values.flatMap (·.names)) ∧
    ∀ (names reactive : List String) (n : Node) (k : Reading Unit) (b : Body),
      (∃ x ∈ names, x ∈ b.declared) → ∃ taken ∈ names, taken ∈ b.declared ∧
        (do if ← declareFresh src names n reactive then k) b = .ok ()
          { b with reports := b.reports ++ [duplicateReport src n taken]
                   locals := b.locals ++ [duplicateDeclaration n taken] } := by
  have run := @leads_readStatements src (statements.flatMap declaredPatterns) statements
    (fun p hp => hp) _ _ _ h
  have owned := (owned_bodyOfProps contexts reports).moves run
  refine ⟨owned.disjoint, owned.declared, fun hagree x => ?_, ?_, ?_⟩
  · have tracked := (tracked_bodyOfProps _ contexts reports).moves hagree run
    rw [tracked.reactive, tracked.map_name_state]
    simp only [Owner.reactive, Table.values, mem_append, Option.mem_toList, mem_flatMap, mem_map,
      exists_exists_and_eq_and, or_assoc, Option.mem_def]
  · exact owned.state_disjoint_derived
  · intro names reactive n k b ⟨x, hx, htaken⟩
    obtain ⟨taken, hfind⟩ : ∃ taken, names.find? b.declared.contains = some taken :=
      Option.isSome_iff_exists.1 (find?_isSome.2 ⟨x, hx, by simpa using htaken⟩)
    refine ⟨taken, mem_of_find?_eq_some hfind, ?_, claim_taken src k hfind⟩
    simpa using find?_some hfind

end Run

/-! ### A body with a taken name -/

section Sample

open Node (plain)

/-- The words of `const [n, setN] = useState(); const twice = n; const setN = twice`. -/
def sampleSource : Source := .ofText "App.jsx" "n setN useState twice label"

/-- A declaration of a pattern with a value. -/
def sampleDeclaration (pattern value : Node) : Node :=
  plain "lexical_declaration" 0 27 [plain "variable_declarator" 0 27
    [{ pattern with field := some "name" }, { value with field := some "value" }]]

/-- A cell of state, a derived value, and a declaration that takes the name of the setter again. -/
def sampleStatements : List Node :=
  let cell := plain "identifier" 0 1 []
  let setter := plain "identifier" 2 6 []
  let call := plain "call_expression" 7 15
    [plain "identifier" 7 15 [] (some "function"),
     plain "arguments" 15 15 [] (some "arguments")]
  let twice := plain "identifier" 16 21 []
  [sampleDeclaration (plain "array_pattern" 0 6 [cell, setter]) call,
   sampleDeclaration twice cell, sampleDeclaration setter twice]

/-- One prop, `label`. -/
def sampleProps : ComponentProps where
  pattern := .destructured
  bindings :=
    [{ name := "label", node := plain "shorthand_property_identifier_pattern" 22 27 [] }]

/-- A second declaration with the name of a setter is kept out. -/
theorem single_ownership_of_taken_setter : ∃ returned body,
    readStatements sampleSource sampleStatements { bodyOfProps sampleProps ∅ with reports := [] }
      = .ok returned body ∧
    body.state.keys = ["n"] ∧ body.derived.keys = ["twice"] ∧ body.locals.length = 1 ∧
    (∀ x, x ∈ body.reactive ↔ x ∈ sampleProps.bindings.map (·.visibleName) ∨
      x ∈ nonEmpty? sampleProps.identifier ∨ x ∈ body.state.values.map (·.name) ∨
      x ∈ body.derived.values.flatMap (·.names)) ∧
    (owners sampleProps body).Pairwise
      (fun o o' => (o.names sampleSource).Disjoint (o'.names sampleSource)) := by
  have test : endsIn (readStatements sampleSource sampleStatements)
      { bodyOfProps sampleProps ∅ with reports := [] } (fun _ b => decide
        (b.state.keys = ["n"] ∧ b.derived.keys = ["twice"] ∧ b.locals.length = 1)) = true := by
    decide +kernel
  obtain ⟨returned, body, hrun, hbody⟩ := exists_ok_of_endsIn test
  have agree : PatternsAgree sampleSource (sampleStatements.flatMap declaredPatterns) := by
    unfold PatternsAgree
    decide +kernel
  obtain ⟨hstate, hderived, hlocals⟩ := of_decide_eq_true hbody
  have all := single_ownership ∅ [] hrun
  exact ⟨returned, body, hrun, hstate, hderived, hlocals, all.2.2.1 agree, all.1⟩

end Sample

end Sveltify.Analysis
