import Sveltify.Proofs.Analysis.Collected
import Sveltify.Proofs.Analysis.TopLevel

namespace Sveltify.Analysis

open Text Scope Component Render Node List

/-!
# Refs and the elements they are bound to

A ref is linked to the first element that is built with it. That element may stand in content that
is left out of the trees.

* `ref_links`: every ref of an element in the trees of a model has a target; every target is an
  element in the trees with that ref, unless an element that is bound to the ref stands in content
  that is left out;
* `target_of_repeated_content`: the lone child of a component instance is built twice, and its ref
  is linked to the element that was built first and is not shown.
-/

variable {m : Module} {o : Options} {reports reports' : List Report} {model : Model}
  {fs : List Finding}

/-- The nodes that stand in left out content of the pieces do so in the function. -/
theorem Collects.dropped_subset (h : Collects m.source model fs) :
    (modelPieces model).flatMap (dropped m.source (modelNames model))
      ⊆ dropped m.source (modelNames model) model.node :=
  flatMap_dropped_subset h.apart

/-- An element in the trees has a ref of the component, and that has a target. -/
theorem Collects.target_of_element (h : Collects m.source model fs) {e : ElementHead}
    (he : e ∈ modelElements model) {ref : String} (href : e.ref = some ref) :
    ∃ r, model.refs.get? ref = some r ∧ r.name = ref ∧ r.target.isSome = true := by
  have found := h.parts.account.kept e he
  have known : ref ∈ model.refs.keys := (h.parts.account.sound _ found ref href).1
  obtain ⟨r, hget, hentry⟩ := Table.exists_entry_of_mem_keys known
  obtain ⟨hname, htarget⟩ := h.refs _ hentry
  refine ⟨r, hget, hname.symm, ?_⟩
  rw [htarget, Option.isSome_map]
  refine find?_isSome.2 ⟨e, Finding.mem_elements.2 found, ?_⟩
  simp [href]

/-- The target of a ref is an element in the trees, or one that is left out. -/
theorem Collects.element_of_target (h : Collects m.source model fs) {r : RefBinding}
    (hr : r ∈ model.refs.values) {t : Nat} (ht : r.target = some t) :
    (∃ e ∈ modelElements model, e.id = t ∧ e.ref = some r.name) ∨
      ∃ n ∈ dropped m.source (modelNames model) model.node, r.name ∈ boundRefs m.source n := by
  obtain ⟨entry, hentry, rfl⟩ := mem_map.1 hr
  obtain ⟨hname, htarget⟩ := h.refs entry hentry
  rw [htarget] at ht
  obtain ⟨e, hfirst, rfl⟩ := Option.map_eq_some_iff.1 ht
  have href : e.ref = some entry.2.name := by simpa [hname] using find?_some hfirst
  have found := Finding.mem_elements.1 (mem_of_find?_eq_some hfirst)
  rcases h.parts.account.left e found with shown | lost
  · exact .inl ⟨e, shown, rfl, href⟩
  · exact .inr ⟨e.node, h.dropped_subset lost, (h.parts.account.sound _ found _ href).2⟩

/-- **Ref links.** Every ref that an element in the trees of a model carries is one of the model's
and has a target. Every target is the number of an element in the trees that carries the ref, unless
an element that is bound to the ref stands in content that is left out. -/
theorem ref_links (h : analyze m o reports = .ok model reports') :
    (∀ e ∈ modelElements model, ∀ ref, e.ref = some ref →
      ∃ r, model.refs.get? ref = some r ∧ r.name = ref ∧ r.target.isSome = true) ∧
    ∀ r ∈ model.refs.values, ∀ t, r.target = some t →
      (∃ e ∈ modelElements model, e.id = t ∧ e.ref = some r.name) ∨
        ∃ n ∈ dropped m.source (modelNames model) model.node,
          r.name ∈ boundRefs m.source n := by
  obtain ⟨choice, top, read, found, stages⟩ := exists_stages h
  obtain ⟨fs, collects, -⟩ := stages.exists_findings
  constructor
  · intro e he ref href
    exact collects.target_of_element he href
  · intro r hr t ht
    exact collects.element_of_target hr ht

section Sample

/-- A component with a ref `r` that returns an expression, which stands from the place 48 on. -/
def refModule (text : String) (returned : Node) : Module :=
  appModule text
    [plain "lexical_declaration" 17 40
      [plain "variable_declarator" 23 39
        [plain "identifier" 23 24 [] (some "name"),
         plain "call_expression" 27 39
          [plain "identifier" 27 33 [] (some "function"),
           plain "arguments" 33 39 [plain "null" 34 38 []] (some "arguments")] (some "value")]],
     plain "return_statement" 41 77 [returned]]

/-- The attribute that binds an element to the ref. -/
def refAttribute (start : Nat) : Node :=
  plain "jsx_attribute" start (start + 7)
    [plain "property_identifier" start (start + 3) [],
     plain "jsx_expression" (start + 4) (start + 7)
      [plain "identifier" (start + 5) (start + 6) []]]

/-- An element and its content that are bound to the same ref. -/
def sharedRefModule : Module :=
  refModule
    "function App() \x7b const r = useRef(null); return <p ref=\x7br\x7d><i ref=\x7br\x7d/></p>; \x7d"
    (plain "jsx_element" 48 75
      [plain "jsx_opening_element" 48 59
        [plain "identifier" 49 50 [] (some "name"), refAttribute 51] (some "open_tag"),
       plain "jsx_self_closing_element" 59 71
        [plain "identifier" 60 61 [] (some "name"), refAttribute 62],
       plain "jsx_closing_element" 71 75 [plain "identifier" 73 74 [] (some "name")]
        (some "close_tag")])

/-- Of two elements with one ref, the inner one is built first and is the target. -/
theorem ref_links_of_shared : ∃ model reports, analyze sharedRefModule {} [] = .ok model reports ∧
    (modelElements model).map (fun e => (e.id, e.ref)) = [(2, some "r"), (1, some "r")] ∧
    model.refs.values.map (fun r => (r.name, r.target)) = [("r", some 1)] ∧
    ∀ r ∈ model.refs.values, ∀ t, r.target = some t →
      (∃ e ∈ modelElements model, e.id = t ∧ e.ref = some r.name) ∨
        ∃ n ∈ dropped sharedRefModule.source (modelNames model) model.node,
          r.name ∈ boundRefs sharedRefModule.source n := by
  have test : endsIn (analyze sharedRefModule {}) [] (fun model _ => decide
      ((modelElements model).map (fun e => (e.id, e.ref)) = [(2, some "r"), (1, some "r")] ∧
        model.refs.values.map (fun r => (r.name, r.target)) = [("r", some 1)])) = true := by
    decide +kernel
  obtain ⟨model, reports, hmodel, hshape⟩ := exists_ok_of_endsIn test
  obtain ⟨helements, hrefs⟩ := of_decide_eq_true hshape
  exact ⟨model, reports, hmodel, helements, hrefs, (ref_links hmodel).2⟩

/-- A component instance whose one child carries a ref. -/
def repeatedRefModule : Module :=
  refModule
    "function App() \x7b const r = useRef(null); return <A>\x7b<b ref=\x7br\x7d/>\x7d</A>; \x7d"
    (plain "jsx_element" 48 69
      [plain "jsx_opening_element" 48 51 [plain "identifier" 49 50 [] (some "name")]
        (some "open_tag"),
       plain "jsx_expression" 51 65
        [plain "jsx_self_closing_element" 52 64
          [plain "identifier" 53 54 [] (some "name"), refAttribute 55]],
       plain "jsx_closing_element" 65 69 [plain "identifier" 67 68 [] (some "name")]
        (some "close_tag")])

/-- The target is the number that the child had when it was built as content, which is not
shown. -/
theorem target_of_repeated_content : ∃ model reports,
    analyze repeatedRefModule {} [] = .ok model reports ∧
    (modelElements model).map (fun e => (e.id, e.ref)) = [(3, some "r")] ∧
    model.refs.values.map (fun r => (r.name, r.target)) = [("r", some 1)] := by
  have test : endsIn (analyze repeatedRefModule {}) [] (fun model _ => decide
      ((modelElements model).map (fun e => (e.id, e.ref)) = [(3, some "r")] ∧
        model.refs.values.map (fun r => (r.name, r.target)) = [("r", some 1)])) = true := by
    decide +kernel
  obtain ⟨model, reports, hmodel, hshape⟩ := exists_ok_of_endsIn test
  exact ⟨model, reports, hmodel, of_decide_eq_true hshape⟩

end Sample

end Sveltify.Analysis
