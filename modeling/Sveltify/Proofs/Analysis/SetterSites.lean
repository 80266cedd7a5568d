import Sveltify.Analysis.Component
import Sveltify.Proofs.Analysis.Reading
import Sveltify.Proofs.Syntax.Tree

namespace Sveltify.Analysis

open Text Scope Component Render

/-!
# Where setters are used

The model of a component lists the spans of the calls and of the other uses of each setter.

* `Unsited`: while a body is read no uses are listed;
* `analyze_state`: in a model they are listed by `setterSites`, all at once;
* `CallsSetter`: a call of a setter;
* `CallsSetter.sited`, `callsSetter_of_sited`: the spans of the calls that are listed;
* `callee_of_unsited`: a setter that is used and not listed is called there.
-/

/-! ### Reading lists no uses -/

/-- No uses of setters are listed. -/
def Unsited (state : Table StateBinding) : Prop :=
  ∀ s ∈ state.values, s.setterCalls = [] ∧ s.setterReferences = []

variable {src : Source} {patterns : List Node}

/-- A change adds no sites. -/
theorem Unsited.move {b b' : Body} (h : Unsited b.state) (hmove : Move src patterns b b') :
    Unsited b'.state := by
  cases hmove with
  | report r => exact h
  | effect e => exact h
  | keep l _ => exact h
  | claim o _ hbound =>
    cases o with
    | state s =>
      intro s' hs'
      rcases Table.mem_values_of_insert hs' with rfl | hs'
      · exact hbound
      · exact h s' hs'
    | _ => exact h

/-- Nor do several. -/
theorem Unsited.moves {b b' : Body} (h : Unsited b.state) (hmoves : Moves src patterns b b') :
    Unsited b'.state := by
  induction hmoves with
  | refl => exact h
  | tail _ hmove ih => exact ih.move hmove

/-- Nor does reading a body. -/
theorem Unsited.readBody {function : Node} {start : Body} {reports reports' : List Report}
    {read : ComponentBody} (h : Unsited start.state)
    (hread : readBody src function start reports = .ok read reports') :
    Unsited read.body.state := by
  obtain ⟨patterns, hmoves⟩ := moves_readBody hread
  exact Unsited.moves (b := { start with reports }) h hmoves

/-- The model of a component lists the uses of its setters, and the body that was read none. -/
theorem analyze_state {m : Module} {o : Options} {reports reports' : List Report} {model : Model}
    (h : analyze m o reports = .ok model reports') :
    ∃ state, Unsited state ∧ model.state = setterSites m.source model.node state := by
  unfold analyze at h
  obtain ⟨choice, _, _, h⟩ := bind_ok_iff.1 h
  unfold analyzeComponent at h
  obtain ⟨_, _, _, h⟩ := bind_ok_iff.1 h
  obtain ⟨top, _, _, h⟩ := bind_ok_iff.1 h
  obtain ⟨read, _, hread, h⟩ := bind_ok_iff.1 h
  obtain ⟨trees, _, _, h⟩ := bind_ok_iff.1 h
  obtain ⟨_, _, _, h⟩ := bind_ok_iff.1 h
  obtain ⟨_, _, _, h⟩ := bind_ok_iff.1 h
  cases h
  exact ⟨read.body.state, Unsited.readBody (by intro s hs; cases hs) hread, rfl⟩

/-! ### Calls of setters -/

/-- A cell has a setter of this name. -/
def IsSetter (state : Table StateBinding) (name : String) : Prop :=
  ∃ s ∈ state.values, nonEmpty? s.setter = some name

/-- A node calls a setter by its name. -/
structure CallsSetter (src : Source) (state : Table StateBinding) (call callee : Node) : Prop where
  named : namedCallee? call = some callee
  isSetter : IsSetter state (src.text callee)

instance (state : Table StateBinding) (name : String) : Decidable (IsSetter state name) :=
  inferInstanceAs (Decidable (∃ s ∈ state.values, nonEmpty? s.setter = some name))

instance (state : Table StateBinding) (call callee : Node) :
    Decidable (CallsSetter src state call callee) :=
  decidable_of_iff (namedCallee? call = some callee ∧ IsSetter state (src.text callee))
    ⟨fun h => ⟨h.1, h.2⟩, fun h => ⟨h.named, h.isSetter⟩⟩

theorem namedCallee_eq_some_iff {call callee : Node} :
    namedCallee? call = some callee ↔ (call.kind == "call_expression") = true ∧
      call.field? "function" = some callee ∧ (callee.kind == "identifier") = true := by
  unfold namedCallee?
  split
  case isTrue h => simp [h]
  case isFalse h => simp [h]

variable {function : Node} {state : Table StateBinding}

/-- The cells with their sites are the cells, with the same setters. -/
theorem mem_values_setterSites {s : StateBinding} :
    s ∈ (setterSites src function state).values ↔ ∃ s₀ ∈ state.values,
      s = withSites src
        (callsOfSetters src (state.values.filterMap fun b => nonEmpty? b.setter) function)
        ((references src function).filter fun r =>
          !((callsOfSetters src (state.values.filterMap fun b => nonEmpty? b.setter)
            function).map fun c => c.2.span).contains r.span) s₀ := by
  simp only [setterSites, Table.values, Table.mapValues, List.map_map, List.mem_map]
  constructor
  · rintro ⟨e, he, rfl⟩
    exact ⟨e.2, ⟨e, he, rfl⟩, rfl⟩
  · rintro ⟨_, ⟨e, he, rfl⟩, rfl⟩
    exact ⟨e, he, rfl⟩

/-- Sites leave the setter alone. -/
theorem setter_withSites (calls : List (Node × Node)) (uses : List Node) (s : StateBinding) :
    (withSites src calls uses s).setter = s.setter := by
  unfold withSites
  split <;> rfl

/-- They leave the names alone. -/
theorem stateNames_withSites (calls : List (Node × Node)) (uses : List Node) (s : StateBinding) :
    stateNames (withSites src calls uses s) = stateNames s := by
  unfold withSites
  split <;> rfl

/-- The setters stay the same. -/
theorem isSetter_setterSites {name : String} :
    IsSetter (setterSites src function state) name ↔ IsSetter state name := by
  constructor
  · rintro ⟨s, hs, hname⟩
    obtain ⟨s₀, hs₀, rfl⟩ := mem_values_setterSites.1 hs
    rw [setter_withSites] at hname
    exact ⟨s₀, hs₀, hname⟩
  · rintro ⟨s₀, hs₀, hname⟩
    refine ⟨_, mem_values_setterSites.2 ⟨s₀, hs₀, rfl⟩, ?_⟩
    rw [setter_withSites]
    exact hname

/-- The calls of setters in a function. -/
theorem mem_callsOfSetters {setters : List String} {call callee : Node} :
    (call, callee) ∈ callsOfSetters src setters function ↔
      call ∈ function.preorder ∧ namedCallee? call = some callee ∧ src.text callee ∈ setters := by
  simp only [callsOfSetters, List.mem_filterMap, Option.map_eq_some_iff, Option.filter_eq_some_iff,
    List.contains_iff_mem, Prod.mk.injEq]
  constructor
  · rintro ⟨n, hn, c, ⟨hc, hs⟩, rfl, rfl⟩
    exact ⟨hn, hc, hs⟩
  · rintro ⟨hn, hc, hs⟩
    exact ⟨call, hn, callee, ⟨hc, hs⟩, rfl, rfl⟩

/-- The names of setters. -/
theorem mem_setterNames {name : String} :
    name ∈ (state.values.filterMap fun b => nonEmpty? b.setter) ↔ IsSetter state name :=
  List.mem_filterMap

/-- Every call of a setter is listed. -/
theorem CallsSetter.sited {call callee : Node} (hcall : call ∈ function.preorder)
    (h : CallsSetter src (setterSites src function state) call callee) :
    ∃ s ∈ (setterSites src function state).values, call.span ∈ s.setterCalls := by
  obtain ⟨s₀, hs₀, hname⟩ := isSetter_setterSites.1 h.isSetter
  refine ⟨_, mem_values_setterSites.2 ⟨s₀, hs₀, rfl⟩, ?_⟩
  simp only [withSites, hname]
  refine List.mem_map.2 ⟨(call, callee), List.mem_filter.2 ⟨?_, by simp⟩, rfl⟩
  exact mem_callsOfSetters.2 ⟨hcall, h.named, mem_setterNames.2 ⟨s₀, hs₀, hname⟩⟩

/-- Nothing but the calls of setters is listed as such. -/
theorem callsSetter_of_sited (hstate : Unsited state) {s : StateBinding} {span : Nat × Nat}
    (hs : s ∈ (setterSites src function state).values) (hspan : span ∈ s.setterCalls) :
    ∃ call ∈ function.preorder, ∃ callee,
      CallsSetter src (setterSites src function state) call callee ∧ call.span = span := by
  obtain ⟨s₀, hs₀, rfl⟩ := mem_values_setterSites.1 hs
  unfold withSites at hspan
  split at hspan
  case h_1 =>
    rw [(hstate s₀ hs₀).1] at hspan
    cases hspan
  case h_2 setter hsetter =>
    obtain ⟨⟨call, callee⟩, hmem, rfl⟩ := List.mem_map.1 hspan
    obtain ⟨hcall, hnamed, hset⟩ := mem_callsOfSetters.1 (List.mem_filter.1 hmem).1
    exact ⟨call, hcall, callee,
      ⟨hnamed, isSetter_setterSites.2 (mem_setterNames.1 hset)⟩, rfl⟩

/-- A setter that is used at a span that is not listed is called there. -/
theorem callee_of_unsited {x : Node} (hx : x ∈ references src function)
    (hset : IsSetter (setterSites src function state) (src.text x))
    (hspan : ∀ s ∈ (setterSites src function state).values, x.span ∉ s.setterReferences) :
    ∃ call ∈ function.preorder, ∃ callee,
      CallsSetter src (setterSites src function state) call callee ∧ callee.span = x.span := by
  obtain ⟨s₀, hs₀, hname⟩ := isSetter_setterSites.1 hset
  have unlisted := hspan _ (mem_values_setterSites.2 ⟨s₀, hs₀, rfl⟩)
  simp only [withSites, hname] at unlisted
  by_cases hmem : x.span ∈ (callsOfSetters src
      (state.values.filterMap fun b => nonEmpty? b.setter) function).map fun c => c.2.span
  · obtain ⟨⟨call, callee⟩, hcall, hcallee⟩ := List.mem_map.1 hmem
    obtain ⟨hin, hnamed, hset⟩ := mem_callsOfSetters.1 hcall
    exact ⟨call, hin, callee, ⟨hnamed, isSetter_setterSites.2 (mem_setterNames.1 hset)⟩, hcallee⟩
  · -- It is a use that is not a callee, and these are listed.
    refine absurd (List.mem_map.2 ⟨x, List.mem_filter.2 ⟨List.mem_filter.2 ⟨hx, ?_⟩, ?_⟩, rfl⟩)
      unlisted
    · simpa using hmem
    · simp

end Sveltify.Analysis
