import Sveltify.Proofs.Analysis.EarlyReturns
import Sveltify.Proofs.Analysis.Ownership
import Sveltify.Proofs.Syntax.Apart

namespace Sveltify.Analysis

open Text Scope Component Render Node List

/-!
# The pieces of a component

Of a component, the bodies of its snippets and the values that it returns are built. They stand in
different statements, and so apart in the function.

* `functionEnds`, `returnedValues`: the early returns of a function and the values it may return;
* `functionPlaces`: the declarators and statements that are read;
* `apart_ends`: all these stand apart;
* `Sourced`: what has been read comes from the places. Each change keeps this (`Sourced.change`),
  hence so does a run (`Sourced.changes`);
* `apart_pieces`: the pieces stand apart in the function.
-/

variable {src : Source}

/-! ### Returned values -/

/-- The values that a chain of early returns may return. -/
def ReturnChain.values (c : ReturnChain) : List Node :=
  c.branches.filterMap (·.2) ++ if c.isTerminal then c.elseValue.toList else []

/-- The early returns of statements, and the value that they end with. -/
def endsOf : List Node → List ReturnChain × Option Node
  | [] => ([], none)
  | s :: rest =>
    if s.kind == "return_statement" then ([], s.firstNamed?)
    else
      match returnChain? s with
      | some chain =>
        if chain.isTerminal then ([chain], none) else (chain :: (endsOf rest).1, (endsOf rest).2)
      | none => endsOf rest

/-- All values that returns may return. -/
def valuesOf (ends : List ReturnChain × Option Node) : List Node :=
  ends.1.flatMap ReturnChain.values ++ ends.2.toList

/-- The early returns of a function, and the value that it ends with. -/
def functionEnds (f : Node) : List ReturnChain × Option Node :=
  match f.field? "body" with
  | some block =>
    if block.kind == "statement_block" then endsOf block.namedChildren else ([], some block)
  | none => ([], none)

/-- The values that a function may return. -/
def returnedValues (f : Node) : List Node := valuesOf (functionEnds f)

/-- The values that a function returns under a condition: all of them if there is an early return,
and else none. -/
def earlyValues (f : Node) : List Node :=
  if (functionEnds f).1.isEmpty then [] else returnedValues f

/-- Early values are returned values. -/
theorem earlyValues_subset (f : Node) : earlyValues f ⊆ returnedValues f := by
  unfold earlyValues
  split
  · exact nil_subset _
  · exact Subset.refl _

/-- The declarators and statements of a function that are read. -/
def functionPlaces (f : Node) : List Node :=
  match f.field? "body" with
  | some block =>
    if block.kind == "statement_block" then (readBefore block.namedChildren).flatMap readPlaces
    else []
  | none => []

/-- Nothing comes behind a chain that returns in any case. -/
def Settled : List ReturnChain → Option Node → Prop
  | [], _ => True
  | c :: cs, final => if c.isTerminal then cs = [] ∧ final = none else Settled cs final

/-- Reading returns what the statements end in. -/
theorem yields_readStatements (statements : List Node) :
    Yields (· = endsOf statements) (readStatements src statements) := by
  induction statements with
  | nil => exact .pure rfl
  | cons s rest ih =>
    rw [readStatements, endsOf]
    split
    · exact .pure rfl
    · cases returnChain? s with
      | none => exact .bind fun _ => ih
      | some chain =>
        dsimp only
        split
        · exact .pure rfl
        · exact ih.andThen fun ends h => .pure (by rw [← h])

/-- The ends of statements are settled. -/
theorem settled_endsOf (statements : List Node) :
    Settled (endsOf statements).1 (endsOf statements).2 := by
  induction statements with
  | nil => exact trivial
  | cons s rest ih =>
    unfold endsOf
    split
    · exact trivial
    · split
      · split
        · rename_i hterminal
          simp [Settled, hterminal]
        · rename_i hterminal
          simpa [Settled, hterminal] using ih
      · exact ih

theorem settled_functionEnds (f : Node) : Settled (functionEnds f).1 (functionEnds f).2 := by
  unfold functionEnds
  split
  · split
    · exact settled_endsOf _
    · exact trivial
  · exact trivial

/-! ### Where returned values stand -/

theorem apart_soleReturn {n : Node} {v : Option Node} (h : soleReturn? n = some v) :
    Apart v.toList [n] := by
  fun_induction soleReturn? n with
  | case1 n _ =>
    cases h
    cases hfirst : n.firstNamed? with
    | none => exact Apart.nil _
    | some m => exact Apart.firstNamed hfirst
  | case2 n _ _ only honly ih =>
    have hchild : only ∈ n.children := namedChildren_subset (by simp [honly])
    exact (ih h).trans (Apart.child hchild)
  | case3 => cases h
  | case4 => cases h

/-- The first branch of an `if` statement and what stands in its alternative stand apart. -/
theorem apart_branches {n : Node} {value : Option Node} {others : List Node}
    (hvalue : (n.field? "consequence").bind soleReturn? = some value)
    (hothers : Apart others (n.field? "alternative").toList) :
    Apart (value.toList ++ others) [n] := by
  obtain ⟨consequence, hconsequence, hreturn⟩ := Option.bind_eq_some_iff.1 hvalue
  refine ((apart_soleReturn hreturn).append hothers).trans ?_
  cases halternative : n.field? "alternative" with
  | none => exact Apart.field hconsequence
  | some alternative => exact Apart.fields (by decide) hconsequence halternative

theorem values_cons (c : ReturnChain) (condition value : Option Node) :
    ReturnChain.values { c with branches := (condition, value) :: c.branches }
      = value.toList ++ c.values := by
  cases value <;> simp [ReturnChain.values]

/-- The values of a chain lie apart. -/
theorem apart_returnChain {n : Node} {chain : ReturnChain} (h : returnChain? n = some chain) :
    Apart chain.values [n] := by
  fun_induction returnChain? n generalizing chain with
  | case1 => cases h
  | case2 n _ value hvalue hnone =>
    cases h
    exact values_cons ⟨[], false, none⟩ _ value ▸ apart_branches hvalue (Apart.nil _)
  | case3 => cases h
  | case4 n _ value hvalue branch alternative halternative inner hinner =>
    rename_i ih
    obtain ⟨tail, htail, rfl⟩ := Option.map_eq_some_iff.1 h
    have inside : Apart tail.values [alternative] := (ih htail).trans (Apart.firstNamed hinner)
    exact values_cons tail _ value ▸ apart_branches hvalue (by rwa [halternative])
  | case5 n _ value hvalue branch alternative halternative inner hinner =>
    obtain ⟨last, hlast, rfl⟩ := Option.map_eq_some_iff.1 h
    have inside : Apart last.toList [alternative] :=
      (apart_soleReturn hlast).trans (Apart.firstNamed hinner)
    exact values_cons ⟨[], true, last⟩ _ value ▸ apart_branches hvalue (by rwa [halternative])
  | case6 => cases h

/-- The places of a statement lie apart. -/
theorem apart_readPlaces (s : Node) : Apart (readPlaces s) [s] := by
  unfold readPlaces
  split
  · exact .of_children (filter_sublist.trans filter_sublist).subperm
  · exact Apart.refl _

/-- What is read and what is returned stands in different statements. -/
theorem apart_statements (statements : List Node) :
    Apart ((readBefore statements).flatMap readPlaces ++ valuesOf (endsOf statements))
      statements := by
  induction statements with
  | nil => exact Apart.nil _
  | cons s rest ih =>
    have head {parts : List Node} (h : Apart parts [s]) : Apart parts (s :: rest) :=
      h.trans (.of_subperm (by simp))
    rw [readBefore, endsOf]
    split
    · refine head ?_
      cases hfirst : s.firstNamed? with
      | none => exact Apart.nil _
      | some m => exact Apart.firstNamed hfirst
    · cases hchain : returnChain? s with
      | none =>
        dsimp only
        rw [flatMap_cons, append_assoc]
        exact (apart_readPlaces s).append ih
      | some chain =>
        dsimp only
        split
        · -- Nothing is read behind a chain that returns in any case.
          exact head (by simpa [valuesOf] using apart_returnChain hchain)
        · have both := (apart_returnChain hchain).append ih
          refine Apart.trans (.of_subperm (Perm.subperm ?_)) both
          simp only [valuesOf, flatMap_cons, append_assoc]
          exact perm_append_comm_assoc _ _ _

/-- Places and returned values lie apart. -/
theorem apart_ends (f : Node) : Apart (functionPlaces f ++ returnedValues f) [f] := by
  unfold functionPlaces returnedValues functionEnds
  split
  · rename_i block hblock
    split
    · exact (apart_statements _).trans ((Apart.namedChildren block).trans (Apart.field hblock))
    · simpa [valuesOf] using Apart.field hblock
  · exact Apart.nil _

/-! ### What is read comes from the places -/

/-- What has been read since `start` comes from the places. -/
structure Sourced (src : Source) (places : List Node) (start b : Body) : Prop where
  snippets : ∀ s ∈ b.snippets, (Owner.snippet s).StandsIn src places
  derived : ∀ d ∈ b.derived.values, ∃ n ∈ places, d.expression ∈ n.preorder
  effects : ∀ e ∈ b.effects, ∃ n ∈ places, e.callback ∈ n.preorder
  declared : b.declared ⊆ start.declared ++ placeNames src places
  /-- Refs are kept under their names, and are not bound to elements yet. -/
  refs : ∀ e ∈ b.refs.entries, e.1 = e.2.name ∧ e.2.target = none
  consumers : ∀ u ∈ b.consumers, u.direction = .consume
  contexts : b.contextDefinitions = start.contextDefinitions
  reports : b.reports.filter isTracked = start.reports.filter isTracked

namespace Sourced

variable {patterns places : List Node} {start b b' : Body}

/-- An owner enters with its source. -/
theorem enter (h : Sourced src places start b) {o : Owner} (hbound : o.IsBound src patterns)
    (hstands : o.StandsIn src places) : Sourced src places start (o.enter b) := by
  -- Only the field for the kind of the owner changes.
  cases o with
  | props p => exact hbound.elim
  | state s => exact { h with }
  | statement l => exact { h with }
  | derived d =>
    refine { h with derived := fun d' hd' => ?_ }
    rcases Table.mem_values_of_insert hd' with rfl | hd'
    · exact hstands
    · exact h.derived d' hd'
  | ref r =>
    refine { h with refs := fun e he => ?_ }
    rcases Table.mem_entries_of_insert he with rfl | he
    · exact ⟨rfl, hstands⟩
    · exact h.refs e he
  | consumer u =>
    refine { h with consumers := fun u' hu' => ?_ }
    rcases mem_append.1 hu' with hu' | hu'
    · exact h.consumers u' hu'
    · rw [mem_singleton.1 hu']
      exact hstands
  | snippet s =>
    refine { h with snippets := fun s' hs' => ?_ }
    rcases mem_append.1 hs' with hs' | hs'
    · exact h.snippets s' hs'
    · rw [mem_singleton.1 hs']
      exact hstands

theorem declare (h : Sourced src places start b) {names : List String} (reactive : List String)
    (hnames : names ⊆ placeNames src places) :
    Sourced src places start { b with declared := b.declared ++ names, reactive } :=
  { h with
    declared := append_subset.2 ⟨h.declared, Subset.trans hnames (subset_append_right _ _)⟩ }

/-- **Step.** A change adds only what comes from the places. -/
theorem change (h : Sourced src places start b) (hchange : Change src patterns places b b') :
    Sourced src places start b' := by
  cases hchange with
  | report r htracked =>
    refine { h with reports := ?_ }
    rw [filter_append, filter_singleton, htracked, h.reports]
    exact append_nil _
  | effect e _ hplace =>
    refine { h with effects := fun e' he' => ?_ }
    rcases mem_append.1 he' with he' | he'
    · exact h.effects e' he'
    · rw [mem_singleton.1 he']
      exact hplace
  | keep l _ hnames => exact { h.declare b.reactive hnames with }
  | claim o _ hbound hnames hstands => exact (h.declare _ hnames).enter hbound hstands

/-- **Run.** So do any number of changes. -/
theorem changes (h : Sourced src places start b) (hchanges : Changes src patterns places b b') :
    Sourced src places start b' := by
  induction hchanges with
  | refl => exact h
  | tail _ hchange ih => exact ih.change hchange

end Sourced

/-! ### Whole bodies -/

/-- The refs that a component receives are kept under their names. -/
theorem refs_bodyOfProps (props : ComponentProps) (contexts : Table ContextDefinition) :
    ∀ e ∈ (bodyOfProps props contexts).refs.entries, e.1 = e.2.name ∧ e.2.target = none := by
  have named : ∀ (bs : List PropBinding) (t : Table RefBinding),
      (∀ e ∈ t.entries, e.1 = e.2.name ∧ e.2.target = none) →
      ∀ e ∈ (bs.foldl (fun t b => t.insert b.visibleName
        { name := b.visibleName, node := b.node, isForwarded := true }) t).entries,
        e.1 = e.2.name ∧ e.2.target = none := by
    intro bs
    induction bs with
    | nil => exact fun t h => h
    | cons b bs ih =>
      refine fun t h => ih _ fun e he => ?_
      rcases Table.mem_entries_of_insert he with rfl | he
      · exact ⟨rfl, rfl⟩
      · exact h e he
  exact named _ ∅ (by simp [EmptyCollection.emptyCollection, Table.empty])

/-- At first nothing has been read. -/
theorem sourced_bodyOfProps (places : List Node) (props : ComponentProps)
    (contexts : Table ContextDefinition) (reports : List Report) :
    Sourced src places { bodyOfProps props contexts with reports }
      { bodyOfProps props contexts with reports } where
  snippets _ h := by cases h
  derived _ h := by cases h
  effects _ h := by cases h
  declared := subset_append_left _ _
  refs := refs_bodyOfProps props contexts
  consumers _ h := by cases h
  contexts := rfl
  reports := rfl

/-- A body changes only at its places. -/
theorem changes_readFunctionBody (f : Node) :
    Leads (fun b b' => ∃ patterns, Changes src patterns (functionPlaces f) b b')
      (readFunctionBody src f) := by
  have unread (ends : List ReturnChain × Option Node) (places : List Node) :
      Leads (fun b b' => ∃ patterns, Changes src patterns places b b')
        (pure ends : Reading (List ReturnChain × Option Node)) := by
    intro b _ b' hrun
    cases hrun
    exact ⟨[], .refl⟩
  unfold readFunctionBody functionPlaces
  cases f.field? "body" with
  | none => exact unread _ _
  | some block =>
    dsimp only
    split
    · exact fun b _ b' hrun => ⟨_, changes_readStatements (fun p hp => hp) (fun n hn => hn) hrun⟩
    · exact unread _ _

theorem yields_readFunctionBody (f : Node) :
    Yields (· = functionEnds f) (readFunctionBody src f) := by
  unfold readFunctionBody functionEnds
  cases f.field? "body" with
  | none => exact .pure rfl
  | some block =>
    dsimp only
    split
    · exact yields_readStatements _
    · exact .pure rfl

/-- What reading the body of a component yields. -/
structure BodyRead (src : Source) (f : Node) (props : ComponentProps) (start : Body)
    (read : ComponentBody) : Prop where
  ends : (read.returns, read.final) = functionEnds f
  sourced : Sourced src (functionPlaces f) start read.body
  owned : Owned src props read.body
  moves : ∃ patterns, Moves src patterns start read.body

/-- What is known of a body that was read. -/
theorem bodyRead_of_readBody {f : Node} {props : ComponentProps}
    {contexts : Table ContextDefinition} {reports reports' : List Report} {read : ComponentBody}
    (h : readBody src f (bodyOfProps props contexts) reports = .ok read reports') :
    BodyRead src f props { bodyOfProps props contexts with reports } read ∧
      reports' = read.body.reports := by
  unfold readBody at h
  split at h
  · rename_i returns final body hrun
    cases h
    obtain ⟨patterns, hchanges⟩ := changes_readFunctionBody f hrun
    have moves : Moves src patterns _ body := hchanges.lift id fun _ _ h => h.move
    exact ⟨⟨yields_readFunctionBody f hrun, (sourced_bodyOfProps _ _ _ _).changes hchanges,
      (owned_bodyOfProps contexts reports).moves moves, patterns, moves⟩, rfl⟩
  · cases h

/-- What is read of the body of a component is what its function was read for. -/
theorem readFunctionBody_of_readBody {f : Node} {start : Body} {reports reports' : List Report}
    {read : ComponentBody} (h : readBody src f start reports = .ok read reports') :
    readFunctionBody src f { start with reports } = .ok (read.returns, read.final) read.body := by
  unfold readBody at h
  split at h
  · rename_i hrun
    cases h
    exact hrun
  · cases h

/-- The pieces of a component that are built: the bodies of its snippets, and what it returns. -/
def ComponentBody.pieces (read : ComponentBody) : List Node :=
  read.body.snippets.map (·.body) ++ valuesOf (read.returns, read.final)

namespace BodyRead

variable {f : Node} {props : ComponentProps} {start : Body} {read : ComponentBody}

/-- Snippets are declared at different places: the place of a snippet tells its name, and no two
have the same name. -/
theorem nodup_places (h : BodyRead src f props start read) :
    (read.body.snippets.map (·.node)).Nodup := by
  have snippets : read.body.snippets.map Owner.snippet <+ owners props read.body := by
    unfold owners
    refine Sublist.cons _ (Sublist.trans ?_ (sublist_append_left _ _))
    exact sublist_append_right _ _
  have apart := pairwise_map.1 (h.owned.disjoint.sublist snippets)
  refine pairwise_map.2 (apart.imp_of_mem fun {s t} hs ht hdisjoint hnode => ?_)
  have name := (h.sourced.snippets s hs).2.1
  rw [hnode, (h.sourced.snippets t ht).2.1] at name
  have same : t.name = s.name := Option.some.inj name
  exact hdisjoint (a := s.name) (by simp [Owner.names]) (by simp [Owner.names, same])

/-- The pieces of a component stand apart in its function. -/
theorem apart_pieces (h : BodyRead src f props start read) : Apart read.pieces [f] := by
  have bodies : Apart (read.body.snippets.map (·.body)) (read.body.snippets.map (·.node)) := by
    rw [map_eq_flatMap, map_eq_flatMap]
    exact Apart.flatMap fun s hs =>
      .of_mem_preorder (snippetBody_mem_preorder (h.sourced.snippets s hs).2.2.1)
  have places : Apart (read.body.snippets.map (·.node)) (functionPlaces f) := by
    refine .of_subperm (subperm_of_subset h.nodup_places fun n hn => ?_)
    obtain ⟨s, hs, rfl⟩ := mem_map.1 hn
    exact (h.sourced.snippets s hs).1
  have values : valuesOf (read.returns, read.final) = returnedValues f := by
    rw [h.ends, returnedValues]
  rw [ComponentBody.pieces, values]
  exact ((bodies.trans places).append (Apart.refl _)).trans (apart_ends f)

end BodyRead

end Sveltify.Analysis
