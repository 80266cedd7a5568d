import Mathlib.Data.List.Nodup
import Mathlib.Data.List.Perm.Subperm
import Sveltify.Proofs.Analysis.Reading
import Sveltify.Proofs.Render.Builders
import Sveltify.Proofs.Text

namespace Sveltify.Render

open Analysis

/-!
# The numbers of elements

Elements and component instances are numbered as they are built. What stands between the tags of a
component instance may be built twice and then counts twice, but only one of the two trees is kept,
so no number is seen twice.

* `nodeIds`: the numbers in a piece of a render tree, at any depth;
* `Issued low high ids`: the numbers `ids` were given out, each once, while the counter went from
  `low` to `high`;
* `Numbers held ids x`: the step `x` adds to the numbers `held` in hand, and may drop some;
* `numbers_buildExpression`: every builder does so;
* `buildEach`: any number of expressions, built one after another;
* `modelIds`: the numbers in the trees of a component;
* `ids_distinct`: no number is seen twice, in whatever trees.
-/

/-! ### Numbers in render trees -/

mutual

/-- The numbers of the elements and component instances in a piece of a render tree. -/
def nodeIds : RenderNode → List Nat
  | .element h children => h.id :: nodesIds children
  | .component h slots => h.id :: slotsIds slots
  | .conditional _ consequent alternate => nodeIds consequent ++ optionalIds alternate
  | .list _ body => nodeIds body
  | .fragment children => nodesIds children
  | _ => []

/-- The numbers in several pieces. -/
def nodesIds : List RenderNode → List Nat
  | [] => []
  | n :: rest => nodeIds n ++ nodesIds rest

/-- The numbers in an optional piece. -/
def optionalIds : Option RenderNode → List Nat
  | none => []
  | some n => nodeIds n

/-- The numbers in the markup handed to a component instance. -/
def slotsIds : List SlotContent → List Nat
  | [] => []
  | .mk _ _ body :: rest => nodeIds body ++ slotsIds rest

end

@[simp] theorem nodeIds_nothing : nodeIds .nothing = [] := rfl

@[simp] theorem optionalIds_none : optionalIds none = [] := rfl

@[simp] theorem optionalIds_some (n : RenderNode) : optionalIds (some n) = nodeIds n := rfl

@[simp] theorem nodesIds_nil : nodesIds [] = [] := rfl

@[simp] theorem nodesIds_cons (n : RenderNode) (rest : List RenderNode) :
    nodesIds (n :: rest) = nodeIds n ++ nodesIds rest := rfl

@[simp] theorem slotsIds_nil : slotsIds [] = [] := rfl

@[simp] theorem slotsIds_cons (name : String) (parameters : Option Node) (body : RenderNode)
    (rest : List SlotContent) :
    slotsIds (.mk name parameters body :: rest) = nodeIds body ++ slotsIds rest := rfl

/-- A missing node counts like an empty one. -/
@[simp] theorem nodeIds_getD_nothing (r : Option RenderNode) :
    nodeIds (r.getD .nothing) = optionalIds r := by
  cases r <;> rfl

/-- The numbers of nodes, one node after another. -/
theorem nodesIds_eq_flatMap (ns : List RenderNode) : nodesIds ns = ns.flatMap nodeIds := by
  induction ns with
  | nil => rfl
  | cons n ns ih => rw [nodesIds_cons, ih, List.flatMap_cons]

@[simp] theorem nodesIds_append (ms ns : List RenderNode) :
    nodesIds (ms ++ ns) = nodesIds ms ++ nodesIds ns := by
  rw [nodesIds_eq_flatMap, List.flatMap_append, nodesIds_eq_flatMap, nodesIds_eq_flatMap]

/-- At most one node, as a list. -/
@[simp] theorem nodesIds_toList (r : Option RenderNode) : nodesIds r.toList = optionalIds r := by
  cases r with
  | none => rfl
  | some n => exact List.append_nil _

@[simp] theorem slotsIds_append (ss ts : List SlotContent) :
    slotsIds (ss ++ ts) = slotsIds ss ++ slotsIds ts := by
  induction ss with
  | nil => rfl
  | cons s ss ih =>
    obtain ⟨name, parameters, body⟩ := s
    rw [List.cons_append, slotsIds_cons, slotsIds_cons, ih, List.append_assoc]

/-! ### Giving out numbers -/

/-- The numbers were given out, each once, while the counter went from `low` to `high`. -/
structure Issued (low high : Nat) (ids : List Nat) : Prop where
  le : low ≤ high
  nodup : ids.Nodup
  above : ∀ k ∈ ids, low < k
  upto : ∀ k ∈ ids, k ≤ high

namespace Issued

variable {low mid high : Nat} {ids new : List Nat}

/-- Nothing is given out at first. -/
theorem nil (low : Nat) : Issued low low [] :=
  ⟨Nat.le_refl _, List.nodup_nil, by simp, by simp⟩

/-- Some of the numbers may be dropped. -/
theorem subperm (h : Issued low high ids) (hsub : new.Subperm ids) : Issued low high new where
  le := h.le
  nodup := by
    rw [List.nodup_iff_count_le_one]
    intro k
    exact Nat.le_trans (hsub.count_le k) (List.nodup_iff_count_le_one.1 h.nodup k)
  above := fun k hk => h.above k (hsub.subset hk)
  upto := fun k hk => h.upto k (hsub.subset hk)

/-- The counter may go on. -/
theorem le_trans (h : Issued low mid ids) (hle : mid ≤ high) : Issued low high ids :=
  ⟨Nat.le_trans h.le hle, h.nodup, h.above, fun k hk => Nat.le_trans (h.upto k hk) hle⟩

/-- Numbers that are given out later are new. -/
theorem append (h : Issued low mid ids) (hnew : Issued mid high new) :
    Issued low high (ids ++ new) where
  le := Nat.le_trans h.le hnew.le
  nodup := by
    refine List.nodup_append.2 ⟨h.nodup, hnew.nodup, fun j hj k hk => ?_⟩
    have := h.upto j hj
    have := hnew.above k hk
    omega
  above := by
    intro k hk
    rcases List.mem_append.1 hk with hk | hk
    · exact h.above k hk
    · exact Nat.lt_of_le_of_lt h.le (hnew.above k hk)
  upto := by
    intro k hk
    rcases List.mem_append.1 hk with hk | hk
    · exact Nat.le_trans (h.upto k hk) hnew.le
    · exact hnew.upto k hk

end Issued

/-- The step starts with the numbers `held` in hand and ends with those of its result: it adds only
numbers that it gives out, and drops what it likes. The counter does not go back, even if the step
fails. -/
structure Numbers {α : Type} (held : List Nat) (ids : α → List Nat) (x : Build α) : Prop where
  ok : ∀ ⦃p a q⦄, x p = .ok a q → p.counter ≤ q.counter ∧
    ∀ low, Issued low p.counter held → Issued low q.counter (ids a)
  error : ∀ ⦃p e q⦄, x p = .error e q → p.counter ≤ q.counter

/-- The step leaves the numbers in hand alone. -/
abbrev Quiet {α : Type} (x : Build α) : Prop := ∀ held, Numbers held (fun _ => held) x

namespace Numbers

variable {α β : Type} {held : List Nat} {ids : α → List Nat} {x : Build α}

/-- A value that holds no more than is held already. -/
theorem pure {a : α} (h : (ids a).Subperm held) : Numbers held ids (Pure.pure a) where
  ok := by
    intro p a' q hrun
    cases hrun
    exact ⟨Nat.le_refl _, fun low hheld => hheld.subperm h⟩
  error := by
    intro p e q hrun
    cases hrun

/-- A failure gives out nothing. -/
theorem throw (e : Failure) : Numbers held ids (throw e : Build α) where
  ok := by
    intro p a q hrun
    cases hrun
  error := by
    intro p e' q hrun
    cases hrun
    exact Nat.le_refl _

/-- One step after another. -/
theorem bind {ids' : β → List Nat} {f : α → Build β} (hx : Numbers held ids x)
    (hf : ∀ a, Numbers (ids a) ids' (f a)) : Numbers held ids' (x >>= f) where
  ok := by
    intro p b q hrun
    obtain ⟨a, p₁, h₁, h₂⟩ := bind_ok_iff.1 hrun
    obtain ⟨hle, hids⟩ := hx.ok h₁
    obtain ⟨hle', hids'⟩ := (hf a).ok h₂
    exact ⟨Nat.le_trans hle hle', fun low hheld => hids' low (hids low hheld)⟩
  error := by
    intro p e q hrun
    rcases bind_error_iff.1 hrun with h₁ | ⟨a, p₁, h₁, h₂⟩
    · exact hx.error h₁
    · exact Nat.le_trans (hx.ok h₁).1 ((hf a).error h₂)

/-- A value is handed on as it is. -/
theorem afterPure {ids' : β → List Nat} {a : α} {f : α → Build β} (hf : Numbers held ids' (f a)) :
    Numbers held ids' (Pure.pure a >>= f) := by
  rwa [pure_bind]

/-- Numbers in hand are kept beside those that a step gives out. -/
theorem beside (hx : Numbers [] ids x) (held : List Nat) :
    Numbers held (fun a => held ++ ids a) x where
  ok := by
    intro p a q hrun
    obtain ⟨hle, hids⟩ := hx.ok hrun
    exact ⟨hle, fun low hheld => hheld.append (hids p.counter (.nil _))⟩
  error := hx.error

/-- A step whose result is changed afterwards. -/
theorem mapOk {ids' : β → List Nat} {f : α → β} (hx : Numbers held ids x)
    (hf : ∀ a, (ids' (f a)).Subperm (ids a)) : Numbers held ids' (f <$> x) := by
  rw [map_eq_pure_bind]
  exact hx.bind fun a => .pure (hf a)

end Numbers

namespace Quiet

variable {α β : Type}

theorem pure (a : α) : Quiet (Pure.pure a : Build α) := fun held => .pure (List.Subperm.refl held)

/-- A change that leaves the counter alone. -/
theorem modify {f : Progress → Progress} (h : ∀ p, (f p).counter = p.counter) :
    Quiet (modify f : Build PUnit) := fun held => {
  ok := by
    intro p u q hrun
    cases hrun
    rw [h p]
    exact ⟨Nat.le_refl _, fun low hheld => hheld⟩
  error := by
    intro p e q hrun
    cases hrun }

/-- A step that cannot see the counter. -/
theorem lift (x : Except Failure α) : Quiet (liftM x : Build α) := by
  cases x with
  | ok a => exact pure a
  | error e => exact fun held => .throw e

theorem bind {x : Build α} {f : α → Build β} (hx : Quiet x) (hf : ∀ a, Quiet (f a)) :
    Quiet (x >>= f) := fun held => (hx held).bind fun a => hf a held

/-- A step after one that leaves the numbers alone. -/
theorem andThen {held : List Nat} {ids : β → List Nat} {x : Build α} {f : α → Build β}
    (hx : Quiet x) (hf : ∀ a, Numbers held ids (f a)) : Numbers held ids (x >>= f) :=
  (hx held).bind hf

/-- A step after one that leaves the numbers alone and whose result is known. -/
theorem after {held : List Nat} {ids : β → List Nat} {Q : α → Prop} {x : Build α}
    {f : α → Build β} (hx : Quiet x) (hresult : Yields Q x)
    (hf : ∀ a, Q a → Numbers held ids (f a)) : Numbers held ids (x >>= f) where
  ok := by
    intro p b q hrun
    obtain ⟨a, p₁, h₁, h₂⟩ := bind_ok_iff.1 hrun
    obtain ⟨hle, hkept⟩ := (hx held).ok h₁
    obtain ⟨hle', hids⟩ := (hf a (hresult h₁)).ok h₂
    exact ⟨Nat.le_trans hle hle', fun low hheld => hids low (hkept low hheld)⟩
  error := by
    intro p e q hrun
    rcases bind_error_iff.1 hrun with h₁ | ⟨a, p₁, h₁, h₂⟩
    · exact (hx held).error h₁
    · exact Nat.le_trans ((hx held).ok h₁).1 ((hf a (hresult h₁)).error h₂)

end Quiet

/-! ### Steps without numbers -/

variable {src : Source} {names : Names}

/-- A report takes no number. -/
theorem quiet_reportAt (severity : Severity) (code message : String) (n : Node)
    (construct : String) : Quiet (reportAt src severity code message n construct) :=
  .modify fun _ => rfl

/-- A fresh number is added to those held. -/
theorem numbers_freshId (held : List Nat) : Numbers held (fun id => id :: held) freshId where
  ok := by
    intro p id q hrun
    cases hrun
    refine ⟨Nat.le_succ _, fun low h => ⟨Nat.le_succ_of_le h.le, ?_, ?_, ?_⟩⟩
    · refine List.nodup_cons.2 ⟨fun hmem => ?_, h.nodup⟩
      exact absurd (h.upto _ hmem) (Nat.not_succ_le_self _)
    · rintro k (_ | ⟨_, hk⟩)
      · exact Nat.lt_succ_of_le h.le
      · exact h.above k hk
    · rintro k (_ | ⟨_, hk⟩)
      · exact Nat.le_refl _
      · exact Nat.le_succ_of_le (h.upto k hk)
  error := by
    intro p e q hrun
    cases hrun

/-- Side steps take no numbers. -/
theorem quiet_sideSteps : SideSteps src (fun x => Quiet x) where
  pure := .pure
  throw e _ := .throw e
  bind := .bind
  slot _ _ := .modify fun _ => rfl
  fault message attr construct := quiet_reportAt _ _ message attr construct

/-- The content of an element is kept or replaced. -/
theorem numbers_buildElement (n : Node) (tag : String) (children : List RenderNode) :
    Numbers (nodesIds children) nodeIds (buildElement src names n tag children) := by
  refine (numbers_freshId _).bind fun id => ?_
  refine Quiet.andThen (quiet_sideSteps.ofAddAttributes names _ _) fun parts => ?_
  -- Content that is replaced takes its numbers with it.
  have kept {shown : List RenderNode} (h : shown = children ∨ nodesIds shown = []) :
      (id :: nodesIds shown).Subperm (id :: nodesIds children) := by
    rcases h with rfl | h
    · exact List.Subperm.refl _
    · rw [h]
      exact List.singleton_subperm_iff.2 (List.mem_cons_self ..)
  dsimp only
  split
  · refine Quiet.andThen (.modify ?_) fun _ => .pure (kept ?_)
    · exact fun p => rfl
    · split
      · exact .inr rfl
      · exact .inl rfl
  · refine .pure (kept ?_)
    split
    · exact .inr rfl
    · exact .inl rfl

/-- A provider holds the numbers of its children. -/
theorem numbers_buildProvider (nested : Bool) (n : Node) (key : String)
    (children : List RenderNode) :
    Numbers (nodesIds children) nodeIds (buildProvider src nested n key children) := by
  have provided (provider : Component.ContextUse) : Numbers (nodesIds children) nodeIds (do
      modify fun p => { p with providers := p.providers ++ [provider] }
      return RenderNode.fragment children) :=
    Quiet.andThen (.modify fun p => rfl) fun _ => .pure (List.Subperm.refl _)
  refine Quiet.andThen (.lift _) fun value => ?_
  dsimp only
  split
  · exact Quiet.andThen (quiet_reportAt _ _ _ _ _) fun _ => provided _
  · exact provided _

/-- A style has no number. -/
theorem numbers_buildStyle (n : Node) (held : List Nat) :
    Numbers held optionalIds (buildStyle src n) := by
  refine Quiet.andThen (.lift _) fun isGlobal => Quiet.andThen (.lift _) fun parts => ?_
  split
  · exact .pure (List.nil_subperm)
  · dsimp only
    split
    · refine Quiet.andThen (.modify ?_) fun _ => .pure List.nil_subperm
      exact fun p => rfl
    · exact .pure List.nil_subperm

/-- An inserted value has one number of its own. -/
theorem numbers_buildValue (n : Node) : Numbers [] optionalIds (buildValue src names n) := by
  refine (quiet_sideSteps.ofSlotUse names n).after (yields_slotUse n) fun slot hslot => ?_
  cases hslot with
  | slot name callee arguments isOptional => exact .pure List.nil_subperm
  | none =>
    dsimp only
    split <;> exact .pure List.nil_subperm

/-! ### Builders

What is shown of each builder, given the same of the builders that it calls. -/

section Builders

variable (src names)

abbrev NumbersExpression (nested : Bool) (n : Node) : Prop :=
  Numbers [] optionalIds (buildExpression src names nested n)

abbrev NumbersBare (nested : Bool) (n : Node) : Prop :=
  Numbers [] optionalIds (buildBare src names nested n)

abbrev NumbersElement (nested : Bool) (n : Node) : Prop :=
  Numbers [] optionalIds (buildMarkup src names nested n)

abbrev NumbersContent (nested : Bool) (cs : List Node) : Prop :=
  Numbers [] nodesIds (buildChildren src names nested cs)

abbrev NumbersAttributes (attributes : List Node) : Prop :=
  Numbers [] (fun made => slotsIds made.2) (buildInstanceAttributes src names attributes)

abbrev NumbersPassed (value : Node) : Prop :=
  ∀ name, Numbers [] (fun slot => slotsIds slot.toList) (passedMarkup src names name value)

end Builders

/-- A part that may be missing. -/
theorem numbers_optional {nested : Bool} {part : Option Node}
    (h : ∀ c, part = some c → NumbersExpression src names nested c) :
    Numbers [] optionalIds (buildOptional src names nested part) := by
  cases part with
  | none => exact .pure (List.Subperm.refl _)
  | some c => exact h c rfl

/-- A slot that may be missing. -/
theorem numbers_passedOptional {value : Option Node}
    (h : ∀ e, value = some e → NumbersPassed src names e) (name : String) :
    Numbers [] (fun slot => slotsIds slot.toList) (passedOptional src names name value) := by
  cases value with
  | none => exact .pure (List.Subperm.refl _)
  | some e => exact h e rfl name

/-- A conjunction holds the numbers of its right-hand side. -/
theorem numbers_conjunction {nested : Bool} {n : Node} (hempty : isEmptyLiteral src n = false)
    (hand : isConjunction n = true)
    (right : ∀ c, n.field? "right" = some c → NumbersExpression src names true c) :
    NumbersBare src names nested n := by
  unfold NumbersBare
  rw [buildBare_conjunction hempty hand]
  refine (numbers_optional right).bind fun consequent => .pure ?_
  cases consequent <;> simp [nodeIds, List.Subperm.refl]

/-- A ternary expression holds the numbers of both branches. -/
theorem numbers_ternary {nested : Bool} {n : Node} (hempty : isEmptyLiteral src n = false)
    (hkind : n.kind = "ternary_expression")
    (consequence : ∀ c, n.field? "consequence" = some c → NumbersExpression src names true c)
    (alternative : ∀ c, n.field? "alternative" = some c → NumbersExpression src names true c) :
    NumbersBare src names nested n := by
  unfold NumbersBare
  rw [buildBare_ternary hempty hkind]
  refine Quiet.andThen (quiet_sideSteps.ofAnyRendered names _) fun rendered => ?_
  split
  · -- The numbers of the first branch are in hand while the second is built.
    refine (numbers_optional consequence).bind fun consequent => ?_
    refine ((numbers_optional alternative).beside _).bind fun alternate => .pure ?_
    simp [nodeIds, List.Subperm.refl]
  · exact .pure (List.Subperm.refl _)

/-- A list holds the numbers of its items. -/
theorem numbers_mapped {n : Node}
    (items : ∀ iterable callback declarations returned,
      mappedList? src n = some (iterable, callback) →
      callbackBody callback = some (declarations, some returned) →
      NumbersExpression src names true returned) :
    Numbers [] optionalIds (buildMapped src names n (mappedList? src n)) := by
  cases mappedCase src names n with
  | leaf hbuild hleaf =>
    rw [hbuild]
    refine .pure ?_
    cases hleaf <;> exact List.Subperm.refl _
  | items hmapped hbody hbuild =>
    rw [hbuild]
    have body := items _ _ _ _ hmapped hbody
    refine Quiet.andThen (.lift _) fun key => body.bind fun made => .pure ?_
    simp [nodeIds, List.Subperm.refl]

/-- Any other expression is a list or a value. -/
theorem numbers_other {nested : Bool} {n : Node} (hempty : isEmptyLiteral src n = false)
    (hjsx : n.isJsx = false) (hand : isConjunction n = false)
    (hternary : n.kind ≠ "ternary_expression")
    (items : ∀ iterable callback declarations returned,
      mappedList? src n = some (iterable, callback) →
      callbackBody callback = some (declarations, some returned) →
      NumbersExpression src names true returned) :
    NumbersBare src names nested n := by
  unfold NumbersBare
  rw [buildBare_other src names hempty hjsx hand hternary]
  refine Quiet.andThen (.lift _) fun isList => ?_
  split
  · exact numbers_mapped items
  · exact numbers_buildValue n

/-- A render function takes the place of the content, although both have been built. -/
theorem numbers_buildInstance {n : Node} (name : String) (children : List RenderNode)
    (attributes : NumbersAttributes src names (attributesOf n))
    (passed : ∀ e, onlyChildExpression? src n = some e → NumbersPassed src names e) :
    Numbers (nodesIds children) nodeIds (buildInstance src names n name children) := by
  refine (numbers_freshId _).bind fun id => (attributes.beside _).bind fun made => ?_
  refine ((numbers_passedOptional passed _).beside _).bind fun slot => .pure ?_
  have content : (slotsIds (instanceContent slot children)).Subperm
      (nodesIds children ++ slotsIds slot.toList) := by
    unfold instanceContent
    split
    · exact (List.sublist_append_right _ _).subperm
    all_goals simp [nodeIds, List.Subperm.refl]
  rw [nodeIds, slotsIds_append]
  rw [List.subperm_iff_count] at content ⊢
  intro k
  have := content k
  simp only [List.count_cons, List.count_append] at this ⊢
  omega

/-- An element holds the numbers of its content and of its slots. -/
theorem numbers_tag {nested : Bool} {n : Node}
    (content : NumbersContent src names nested n.children)
    (attributes : NumbersAttributes src names (attributesOf n))
    (passed : ∀ e, onlyChildExpression? src n = some e → NumbersPassed src names e) :
    NumbersElement src names nested n := by
  unfold NumbersElement
  rw [buildMarkup_eq]
  have inside : Numbers [] nodesIds (buildContent src names nested n) := by
    unfold buildContent
    split
    · exact .pure (List.Subperm.refl _)
    · exact content
  refine inside.bind fun children => ?_
  unfold buildTag
  split
  · exact .pure (List.Subperm.refl _)
  · exact (numbers_buildProvider nested n _ children).mapOk fun _ => List.Subperm.refl _
  · exact numbers_buildStyle n _
  · exact (numbers_buildElement n _ children).mapOk fun _ => List.Subperm.refl _
  · exact (numbers_buildInstance _ children attributes passed).mapOk fun _ => List.Subperm.refl _

/-- A child is an expression, an element or text. -/
theorem numbers_buildChild {nested : Bool} {c : Node}
    (expression : ∀ e, innerExpression? c = some e → NumbersExpression src names true e)
    (element : c.isJsx = true → NumbersElement src names nested c) :
    Numbers [] optionalIds (buildChild src names nested c) := by
  cases childCase src names nested c with
  | leaf hbuild hleaf =>
    rw [hbuild]
    refine .pure ?_
    cases hleaf <;> exact List.Subperm.refl _
  | expression hbuild _ _ hinner =>
    rw [hbuild]
    exact expression _ hinner
  | element hbuild _ _ hjsx =>
    rw [hbuild]
    exact element hjsx

/-- The first child comes before the others. -/
theorem numbers_nextChild {nested : Bool} {c : Node} {cs : List Node}
    (expression : ∀ e, innerExpression? c = some e → NumbersExpression src names true e)
    (element : c.isJsx = true → NumbersElement src names nested c)
    (rest : NumbersContent src names nested cs) : NumbersContent src names nested (c :: cs) := by
  unfold NumbersContent
  rw [buildChildren_cons]
  refine (numbers_buildChild expression element).bind fun built => ?_
  refine (rest.beside _).bind fun others => .pure ?_
  rw [nodesIds_append, nodesIds_toList]

/-- The first attribute comes before the others. -/
theorem numbers_nextAttribute {a : Node} {rest : List Node}
    (passed : ∀ value, valueExpression? a = some value → NumbersPassed src names value)
    (others : NumbersAttributes src names rest) : NumbersAttributes src names (a :: rest) := by
  unfold NumbersAttributes
  rw [buildInstanceAttributes_cons]
  split
  · exact others.bind fun made => .pure (List.Subperm.refl _)
  · refine Quiet.andThen (.lift _) fun name => ?_
    split
    · exact others
    · refine (numbers_passedOptional passed name).bind fun slot => ?_
      refine (others.beside _).bind fun made => .pure ?_
      cases slot with
      | none => exact List.Subperm.refl _
      | some slot =>
        rw [← slotsIds_append]
        exact List.Subperm.refl _

/-- A function that is passed as a slot. -/
theorem numbers_handed {value v : Node} (hbare : value.bare? = some v)
    (body : ∀ parameters b, passedParts? v = some (parameters, b) →
      NumbersExpression src names true b) : NumbersPassed src names value := by
  intro name
  rw [passedMarkup_of_bare src names hbare]
  cases hparts : passedParts? v with
  | none => exact .pure (List.Subperm.refl _)
  | some parts =>
    refine (body parts.1 parts.2 hparts).bind fun made => .pure ?_
    simp [List.Subperm.refl]

/-- Every builder numbers what it builds. -/
theorem numbers_cases : BuildCases src (NumbersExpression src names) (NumbersBare src names)
    (NumbersElement src names) (NumbersContent src names) (NumbersAttributes src names)
    (NumbersPassed src names) where
  failed h := by
    unfold NumbersExpression
    rw [buildExpression_of_none h]
    exact .throw _
  bare hbare h := by
    unfold NumbersExpression
    rw [buildExpression_of_bare hbare]
    exact h
  empty h := by
    unfold NumbersBare
    rw [buildBare_empty src names h]
    exact .pure (List.Subperm.refl _)
  markup hempty hjsx h := by
    unfold NumbersBare
    rw [buildBare_markup src names hempty hjsx]
    exact h
  conjunction := numbers_conjunction
  ternary := numbers_ternary
  other := numbers_other
  tag := numbers_tag
  noContent {nested} := by
    unfold NumbersContent
    rw [buildChildren.eq_def]
    exact .pure (List.Subperm.refl _)
  nextChild := numbers_nextChild
  noAttributes := by
    unfold NumbersAttributes
    rw [buildInstanceAttributes]
    exact .pure (List.Subperm.refl _)
  nextAttribute := numbers_nextAttribute
  notPassed h name := by
    rw [passedMarkup_of_none src names h]
    exact .throw _
  handed := numbers_handed

/-- Building the render tree of an expression numbers it afresh. -/
theorem numbers_buildExpression (nested : Bool) (n : Node) : NumbersExpression src names nested n :=
  numbers_cases.ofExpression nested n

/-- So does the builder of a part that may be missing. -/
theorem numbers_buildOptional (nested : Bool) (value : Option Node) :
    Numbers [] optionalIds (buildOptional src names nested value) :=
  numbers_optional fun c _ => numbers_buildExpression nested c

/-! ### The trees of a component -/

section Trees

variable {α β : Type} {ids : α → List Nat}

/-- Steps for the entries of a list give out different numbers. -/
theorem Numbers.mapM {f : β → Build α} (hf : ∀ b, Numbers [] ids (f b)) (l : List β) :
    Numbers [] (fun made => made.flatMap ids) (l.mapM f) := by
  induction l with
  | nil => exact .pure (List.Subperm.refl _)
  | cons b l ih =>
    rw [List.mapM_cons]
    refine (hf b).bind fun a => (ih.beside _).bind fun as => .pure ?_
    rw [List.flatMap_cons]

/-- The numbers in the trees of a chain of early returns. -/
def chainIds (c : BuiltChain) : List Nat :=
  c.branches.flatMap (fun b => optionalIds b.2) ++ optionalIds c.elseValue

/-- The branches of a chain are numbered in turn. -/
theorem numbers_buildChain (c : ReturnChain) :
    Numbers [] chainIds (buildChain src names c) := by
  unfold buildChain
  have branch (b : Option Node × Option Node) : Numbers [] (fun b => optionalIds b.2)
      (do return (b.1, ← buildOptional src names false b.2) :
        Build (Option Node × Option RenderNode)) :=
    (numbers_buildOptional false b.2).bind fun r => .pure (List.Subperm.refl _)
  refine (Numbers.mapM branch c.branches).bind fun branches => ?_
  dsimp only
  split
  · refine ((numbers_buildOptional false c.elseValue).beside _).bind fun r => ?_
    exact .pure (List.Subperm.refl _)
  · exact .afterPure (.pure (by simp [chainIds, List.Subperm.refl]))

/-- A tree of branches holds each number as often as its branches do. -/
theorem count_chainTree (k : Nat) (branches : List (Option Node × Option RenderNode))
    (rest : Option RenderNode) :
    (optionalIds (chainTree branches rest)).count k =
      (branches.flatMap fun b => optionalIds b.2).count k + (optionalIds rest).count k := by
  induction branches with
  | nil => simp [chainTree]
  | cons b bs ih =>
    have : chainTree (b :: bs) rest =
        some (.conditional b.1 (b.2.getD .nothing) (chainTree bs rest)) := rfl
    rw [this, optionalIds_some, nodeIds, nodeIds_getD_nothing, List.count_append, ih,
      List.flatMap_cons, List.count_append, Nat.add_assoc]

/-- What follows on a chain that always returns is dropped. -/
theorem subperm_assemble (chains : List BuiltChain) (final : Option RenderNode) :
    (optionalIds (assemble chains final)).Subperm
      (chains.flatMap chainIds ++ optionalIds final) := by
  rw [List.subperm_iff_count]
  intro k
  induction chains with
  | nil => exact Nat.le_refl _
  | cons c cs ih =>
    have : assemble (c :: cs) final =
        chainTree c.branches (if c.isTerminal then c.elseValue else assemble cs final) := rfl
    rw [this, count_chainTree, List.flatMap_cons, List.append_assoc, List.count_append, chainIds,
      List.count_append]
    split <;> omega

/-- The trees of a component share no number. -/
theorem numbers_buildTrees (read : ComponentBody) :
    Numbers [] (fun trees => nodesIds (trees.1.map (·.body)) ++ optionalIds trees.2)
      (buildTrees src names read) := by
  unfold buildTrees
  have snippet (s : SnippetSource) : Numbers [] (fun made : Snippet => nodeIds made.body) (do
      let body ← buildExpression src names false s.body
      return { name := s.name, node := s.node, body := body.getD .nothing,
               parameters := s.parameters }) := by
    refine (numbers_buildExpression false s.body).bind fun body => .pure ?_
    rw [nodeIds_getD_nothing]
  refine (Numbers.mapM snippet read.body.snippets).bind fun snippets => ?_
  refine ((Numbers.mapM numbers_buildChain read.returns).beside _).bind fun chains => ?_
  refine ((numbers_buildOptional false read.final).beside _).bind fun final => .pure ?_
  rw [nodesIds_eq_flatMap, List.flatMap_map, List.append_assoc]
  exact (List.Subperm.refl _).append (subperm_assemble chains final)

/-- The numbers of the elements and component instances in all the trees of a model. -/
def modelIds (model : Component.Model) : List Nat :=
  nodesIds (model.snippets.map (·.body)) ++ optionalIds model.renderTree

/-- No number stands twice in a model. -/
theorem nodup_modelIds_of_analyze {m : Module} {o : Options} {reports reports' : List Report}
    {model : Component.Model} (h : analyze m o reports = .ok model reports') :
    (modelIds model).Nodup := by
  obtain ⟨_, _, names, read, found, _, r₂, _, _, _, hbuilt, _⟩ := exists_read_of_analyze h
  unfold renderBody at hbuilt
  split at hbuilt
  case h_1 hrun =>
    cases hbuilt
    exact (((numbers_buildTrees read).ok hrun).2 _ (.nil _)).nodup
  case h_2 => cases hbuilt

end Trees

/-! ### Any number of expressions -/

/-- Build expressions one after another. One that fails yields nothing, but what was found on the
way stays. -/
def buildEach (src : Source) (names : Names) :
    List (Bool × Option Node) → Progress → List RenderNode × Progress
  | [], p => ([], p)
  | call :: calls, p =>
    match buildOptional src names call.1 call.2 p with
    | .ok r q =>
      let made := buildEach src names calls q
      (r.toList ++ made.1, made.2)
    | .error _ q => buildEach src names calls q

/-- A row of calls gives out numbers that differ. -/
theorem issued_buildEach (calls : List (Bool × Option Node)) (p : Progress) :
    Issued p.counter (buildEach src names calls p).2.counter
      (nodesIds (buildEach src names calls p).1) := by
  induction calls generalizing p with
  | nil => exact .nil _
  | cons call calls ih =>
    have step := @numbers_buildOptional src names call.1 call.2
    rw [buildEach]
    cases hrun : buildOptional src names call.1 call.2 p with
    | ok r q =>
      dsimp only
      rw [nodesIds_append, nodesIds_toList]
      exact ((step.ok hrun).2 _ (.nil _)).append (ih q)
    | error e q =>
      -- What a failed expression was given is lost, so the next ones start with later numbers.
      have later : Issued p.counter q.counter [] := (Issued.nil _).le_trans (step.error hrun)
      exact later.append (ih q)

/-- Different numbers have different texts. -/
theorem idText_injective : Function.Injective idText := Text.numbered_injective "n"

/-- **The numbers of elements are unique.** Whatever expressions are built one after another, the
elements and component instances in all the trees carry different numbers, counted from one. So do
those in the trees of any component that is analysed. -/
theorem ids_distinct :
    (∀ (src : Source) (names : Names) (calls : List (Bool × Option Node)) (p : Progress),
      ((nodesIds (buildEach src names calls { p with counter := 0 }).1).map idText).Nodup ∧
        ∀ k ∈ nodesIds (buildEach src names calls { p with counter := 0 }).1,
          1 ≤ k ∧ k ≤ (buildEach src names calls { p with counter := 0 }).2.counter) ∧
    ∀ (m : Module) (o : Options) (reports reports' : List Report) (model : Component.Model),
      analyze m o reports = .ok model reports' → ((modelIds model).map idText).Nodup := by
  constructor
  · intro src names calls p
    have issued := @issued_buildEach src names calls { p with counter := 0 }
    exact ⟨issued.nodup.map idText_injective, fun k hk => ⟨issued.above k hk, issued.upto k hk⟩⟩
  · intro m o reports reports' model h
    exact (nodup_modelIds_of_analyze h).map idText_injective

section Sample

open Node

/-- A component instance whose one child is built twice: as its content, and then as the markup that
is passed to it, which is kept. -/
def rebuiltModule : Module where
  source := .ofText "App.jsx" "function App() \x7b return <A>\x7b<b/>\x7d</A>; \x7d"
  root :=
    .numbered <| plain "program" 0 40 [plain "function_declaration" 0 40
      [plain "identifier" 9 12 [] (some "name"),
       plain "statement_block" 15 40 [plain "return_statement" 17 38 [plain "jsx_element" 24 37
        [plain "jsx_opening_element" 24 27 [plain "identifier" 25 26 [] (some "name")]
          (some "open_tag"),
         plain "jsx_expression" 27 33 [plain "jsx_self_closing_element" 28 32
          [plain "identifier" 29 30 [] (some "name")]],
         plain "jsx_closing_element" 33 37 [plain "identifier" 35 36 [] (some "name")]
          (some "close_tag")]]] (some "body")]]
  dialect := .javascript

/-- The number that the child had at first is not seen. -/
theorem ids_distinct_of_rebuilt : ∃ model reports,
    analyze rebuiltModule {} [] = .ok model reports ∧
    (modelIds model).map idText = ["n2", "n3"] ∧ ((modelIds model).map idText).Nodup := by
  have test : endsIn (analyze rebuiltModule {}) [] (fun model _ =>
      (modelIds model).map idText == ["n2", "n3"]) = true := by
    decide +kernel
  obtain ⟨model, reports, hmodel, hids⟩ := exists_ok_of_endsIn test
  exact ⟨model, reports, hmodel, eq_of_beq hids, ids_distinct.2 _ _ _ _ _ hmodel⟩

end Sample

end Sveltify.Render
