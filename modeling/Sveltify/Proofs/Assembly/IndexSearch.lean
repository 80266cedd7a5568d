import Mathlib.Data.Finset.Card
import Mathlib.Data.Finset.Dedup
import Mathlib.Logic.Function.Iterate
import Mathlib.Order.Bounds.Defs
import Sveltify.Proofs.Assembly.ListIndices

namespace Sveltify.Assembly

open Analysis Component Scope
open Render (ListHead)

/-!
# The search for an index

An index is looked for name by name: the usual names first, then numbers, for as long as a name is
taken. Nothing in the search says how far the numbers go. It ends because the numbered names are
distinct, so each number that is passed uses up another one of the names that are taken.

* `Search`, `Search.step`: where the search stands, and what trying one more name does;
* `untried`, `Search.rank`: the names that the numbers have not used up, and the steps left;
* `Search.exists_found`: the search ends, from wherever it stands;
* `Search.Sound`: all names in front of the one tried next are taken;
* `avoidedNames`: the names that the index of a list differs from;
* `index_search_ends`: the search ends with the index that a list gets, which is none of these
  names.
-/

variable {taken : Finset String}

/-! ### Steps -/

/-- Where the search for an index stands. -/
inductive Search where
  /-- The usual names that are left to be tried. -/
  | usual (left : List String)
  /-- The number to be tried next. -/
  | numbered (k : Nat)
  /-- The name that was found. -/
  | found (name : String)
deriving Repr, DecidableEq

namespace Search

/-- The search before any name is tried. -/
def start : Search := usual usualIndices

/-- One more name is tried. The numbers begin where no usual name is left. -/
def step (taken : Finset String) : Search → Search
  | usual [] => numbered 0
  | usual (name :: left) => if name ∈ taken then usual left else found name
  | numbered k => if numberedIndex k ∈ taken then numbered (k + 1) else found (numberedIndex k)
  | found name => found name

end Search

/-! ### The end of the search -/

/-- The names taken that are not among the first `k` numbered ones. -/
def untried (taken : Finset String) (k : Nat) : Finset String :=
  taken.filter fun name => ∀ j < k, numberedIndex j ≠ name

theorem untried_zero (taken : Finset String) : untried taken 0 = taken :=
  Finset.filter_true_of_mem fun _ _ _ hj => absurd hj (Nat.not_lt_zero _)

/-- A number whose name is taken uses up that name, which no smaller number did. -/
theorem untried_succ_ssubset {k : Nat} (h : numberedIndex k ∈ taken) :
    untried taken (k + 1) ⊂ untried taken k := by
  refine Finset.ssubset_iff_subset_ne.2 ⟨fun name hname => ?_, fun heq => ?_⟩
  · obtain ⟨hmem, hother⟩ := Finset.mem_filter.1 hname
    exact Finset.mem_filter.2 ⟨hmem, fun j hj => hother j (by omega)⟩
  · have hbefore : numberedIndex k ∈ untried taken k := by
      refine Finset.mem_filter.2 ⟨h, ?_⟩
      intro j hj hsame
      exact hj.ne (numberedIndex_injective hsame)
    rw [← heq] at hbefore
    exact (Finset.mem_filter.1 hbefore).2 k (Nat.lt_succ_self k) rfl

namespace Search

/-- The number of steps that the search can still make. -/
def rank (taken : Finset String) : Search → Nat
  | usual left => left.length + taken.card + 2
  | numbered k => (untried taken k).card + 1
  | found _ => 0

/-- A step uses up some of the rank, unless a name is found already. -/
theorem rank_step (taken : Finset String) (s : Search) :
    (∃ name, s = found name) ∨ rank taken (step taken s) < rank taken s := by
  -- A usual name is tried once; a number that is taken leaves one less to be tried.
  cases s with
  | usual left =>
    right
    cases left with
    | nil =>
      rw [step, rank, rank, untried_zero, List.length_nil]
      omega
    | cons name left =>
      by_cases htaken : name ∈ taken
      · rw [step, if_pos htaken, rank, rank, List.length_cons]
        omega
      · rw [step, if_neg htaken]
        exact Nat.succ_pos _
  | numbered k =>
    right
    by_cases htaken : numberedIndex k ∈ taken
    · rw [step, if_pos htaken]
      exact Nat.succ_lt_succ (Finset.card_lt_card (untried_succ_ssubset htaken))
    · rw [step, if_neg htaken]
      exact Nat.succ_pos _
  | found name => exact .inl ⟨name, rfl⟩

/-- The search ends, after no more steps than its rank says. -/
theorem exists_found (taken : Finset String) (s : Search) :
    ∃ steps ≤ rank taken s, ∃ name, (step taken)^[steps] s = found name := by
  induction hrank : rank taken s using Nat.strong_induction_on generalizing s with
  | _ r ih =>
    subst hrank
    rcases rank_step taken s with ⟨name, rfl⟩ | hlt
    · exact ⟨0, Nat.zero_le _, name, rfl⟩
    · obtain ⟨steps, hsteps, name, hname⟩ := ih _ hlt _ rfl
      exact ⟨steps + 1, by omega, name, hname⟩

end Search

/-! ### What is found -/

/-- Which candidate comes first does not depend on the order of the names taken. -/
theorem IsFirstFree.congr {l l' : List String} {k : Nat} (hl : ∀ name, name ∈ l ↔ name ∈ l')
    (h : IsFirstFree l k) : IsFirstFree l' k where
  free hmem := h.free ((hl _).2 hmem)
  before j hj := (hl _).1 (h.before j hj)

/-- Where the usual names are taken, the first free candidate has the least number that is free. -/
theorem IsFirstFree.exists_isLeast {l : List String} {c : Nat} (h : IsFirstFree l c)
    (husual : usualIndices ⊆ l) :
    ∃ k, IsLeast {k | 1 ≤ k ∧ s!"i{k}" ∉ l} k ∧ indexCandidate c = s!"i{k}" := by
  have hc : usualIndices.length ≤ c := by
    by_contra hlt
    rw [Nat.not_le] at hlt
    refine h.free ?_
    rw [indexCandidate_usual hlt]
    exact husual (List.getElem_mem hlt)
  obtain ⟨k, rfl⟩ := Nat.exists_eq_add_of_le hc
  rw [indexCandidate_numbered]
  refine ⟨k + 1, ⟨⟨Nat.le_add_left .., ?_⟩, fun n hn => ?_⟩, rfl⟩
  · have hfree := h.free
    rwa [indexCandidate_numbered] at hfree
  · obtain ⟨hpos, hfree⟩ := hn
    obtain ⟨j, rfl⟩ := Nat.exists_eq_add_of_le' hpos
    -- A smaller number would belong to a candidate that is taken.
    by_contra hlt
    have htaken := h.before (usualIndices.length + j) (by omega)
    rw [indexCandidate_numbered] at htaken
    exact hfree htaken

namespace Search

/-- The candidates in front of the one tried next are taken, and a name found is the first that is
not. -/
def Sound (taken : Finset String) : Search → Prop
  | usual left => ∃ k, left = usualIndices.drop k ∧ k ≤ usualIndices.length ∧
      ∀ j < k, indexCandidate j ∈ taken
  | numbered k => ∀ j < usualIndices.length + k, indexCandidate j ∈ taken
  | found name => ∃ k, IsFirstFree taken.toList k ∧ name = indexCandidate k

/-- Nothing is tried at first. -/
theorem sound_start : Sound taken start :=
  ⟨0, rfl, Nat.zero_le _, fun _ hj => absurd hj (Nat.not_lt_zero _)⟩

section Step

variable {k : Nat} (h : ∀ j < k, indexCandidate j ∈ taken)
include h

theorem before_succ (htaken : indexCandidate k ∈ taken) :
    ∀ j < k + 1, indexCandidate j ∈ taken := by
  intro j hj
  rcases Nat.lt_succ_iff_lt_or_eq.1 hj with hlt | rfl
  · exact h j hlt
  · exact htaken

/-- A free candidate ends the search. -/
theorem sound_found (hfree : indexCandidate k ∉ taken) :
    Sound taken (found (indexCandidate k)) :=
  ⟨k, ⟨by simpa using hfree, fun j hj => by simpa using h j hj⟩, rfl⟩

end Step

/-- Step: the search stays sound. -/
theorem Sound.step {s : Search} (h : Sound taken s) : Sound taken (s.step taken) := by
  cases s with
  | usual left =>
    obtain ⟨k, rfl, hk, hbefore⟩ := h
    rcases hk.eq_or_lt with rfl | hlt
    -- No usual name is left, so what is known is that all of them are taken.
    · rw [List.drop_length]
      exact hbefore
    · rw [List.drop_eq_getElem_cons hlt, ← indexCandidate_usual hlt, Search.step]
      by_cases htaken : indexCandidate k ∈ taken
      · rw [if_pos htaken]
        exact ⟨k + 1, rfl, hlt, before_succ hbefore htaken⟩
      · rw [if_neg htaken]
        exact sound_found hbefore htaken
  | numbered k =>
    rw [Search.step, ← indexCandidate_numbered]
    by_cases htaken : indexCandidate (usualIndices.length + k) ∈ taken
    · rw [if_pos htaken]
      exact before_succ h htaken
    · rw [if_neg htaken]
      exact sound_found h htaken
  | found name => exact h

/-- Run: so it does in any number of steps. -/
theorem Sound.iterate {s : Search} (h : Sound taken s) (steps : Nat) :
    Sound taken ((Search.step taken)^[steps] s) := by
  induction steps with
  | zero => exact h
  | succ steps ih =>
    rw [Function.iterate_succ_apply']
    exact ih.step

/-- The search ends with the name that `freshIndex` gives, in whatever order the names taken are
listed. Besides the usual names, it tries no more names than are taken, and the one it finds. -/
theorem exists_found_freshIndex {l : List String} (hl : l.toFinset = taken) :
    ∃ steps ≤ taken.card + 5, (step taken)^[steps] start = found (freshIndex l) := by
  obtain ⟨steps, hsteps, name, hname⟩ := exists_found taken start
  have hsound : Sound taken ((step taken)^[steps] start) := sound_start.iterate steps
  rw [hname] at hsound
  obtain ⟨k, hk, rfl⟩ := hsound
  obtain ⟨c, hc, hfresh⟩ := exists_isFirstFree l
  have hsame : k = c := (hk.congr fun name => by simp [← hl]).unique hc
  refine ⟨steps, ?_, by rw [hname, hfresh, hsame]⟩
  rw [start, rank] at hsteps
  have : usualIndices.length = 3 := rfl
  omega

end Search

/-! ### The index of a list -/

/-- The names that the index of a list differs from, given the reserved ones: these, the names of
the item and those declared for each item. -/
def avoidedNames (src : Source) (reserved : Finset String) (h : ListHead) : Finset String :=
  reserved ∪ (boundNamesOf src h.item).toFinset
    ∪ (h.declarations.flatMap (bindingsWithin src)).toFinset

theorem toFinset_takenNames (src : Source) (model : Model) (h : ListHead) :
    (takenNames src model h).toFinset = avoidedNames src (reservedNames model).toFinset h := by
  rw [takenNames, List.toFinset_append, List.toFinset_append, avoidedNames]

/-- The names that a declaration binds for the items are among those declared anywhere in it. -/
theorem declaratorNames_subset_bindingsWithin (src : Source) (d : Node) :
    declaratorNames src d ⊆ bindingsWithin src d := by
  intro name hname
  obtain ⟨c, hc, hname⟩ := List.mem_flatMap.1 hname
  obtain ⟨hchild, hkind⟩ := List.mem_filter.1 hc
  have hinside : c ∈ d.preorder :=
    Node.child_mem_preorder (Node.namedChildren_subset hchild) (Node.mem_preorder_self d)
  exact boundNamesOf_subset_bindingsWithin hinside (eq_of_beq hkind) hname

/-- A component can reserve any names. -/
theorem exists_reservedNames (names : List String) : ∃ model, reservedNames model = names := by
  let n : Node := .plain "variable_declaration" 0 0 []
  let model : Model :=
    { name := "App", node := n, props := { pattern := .absent }
      locals := [{ kind := .variable, node := n, names }] }
  exact ⟨model, List.append_nil names⟩

/-- **The search for an index ends.** Whatever names a component reserves, and whatever a list binds
and declares for its items: after at most five steps more than there are names to avoid, the search
ends with the index that the list gets. It is none of these names, so in particular none that the
declarations bind for the items. If the usual names are all among them, it has the least number
whose name is not. -/
theorem index_search_ends (src : Source) (reserved : Finset String) (h : ListHead) :
    (∃ model, (reservedNames model).toFinset = reserved) ∧
    ∀ model, (reservedNames model).toFinset = reserved →
      (∃ steps ≤ (avoidedNames src reserved h).card + 5,
        (Search.step (avoidedNames src reserved h))^[steps] .start
          = .found (indexFor src model h)) ∧
      indexFor src model h ∉ avoidedNames src reserved h ∧
      (∀ d ∈ h.declarations, indexFor src model h ∉ declaratorNames src d) ∧
      ({"i", "index", "idx"} ⊆ avoidedNames src reserved h →
        ∃ k, IsLeast {k | 1 ≤ k ∧ s!"i{k}" ∉ avoidedNames src reserved h} k ∧
          indexFor src model h = s!"i{k}") := by
  refine ⟨?_, fun model hreserved => ?_⟩
  · obtain ⟨model, hmodel⟩ := exists_reservedNames reserved.toList
    exact ⟨model, by rw [hmodel, Finset.toList_toFinset]⟩
  · subst hreserved
    rw [← toFinset_takenNames]
    -- The index is the first candidate that is free; the rest follows from that.
    obtain ⟨c, hc, hindex⟩ : ∃ c, IsFirstFree (takenNames src model h) c ∧
        indexFor src model h = indexCandidate c := exists_isFirstFree _
    have hfree : indexFor src model h ∉ takenNames src model h := hindex ▸ hc.free
    refine ⟨Search.exists_found_freshIndex rfl, by rwa [List.mem_toFinset], fun d hd hbound => ?_,
      fun husual => ?_⟩
    · have hdeclared := declaratorNames_subset_bindingsWithin src d hbound
      exact hfree (List.mem_append_right _ (List.mem_flatMap.2 ⟨d, hd, hdeclared⟩))
    · have husual : usualIndices ⊆ takenNames src model h := fun name hname =>
        List.mem_toFinset.1 (husual (by simpa [usualIndices] using hname))
      simpa only [List.mem_toFinset, hindex] using hc.exists_isLeast husual

section Sample

open Node

/-- A list whose items bind `index` and declare `idx`, in a component with the props `i` and
`i1`. -/
def crowdedModule : Module :=
  appModule ("function App(\x7b xs, i, i1 \x7d) \x7b "
      ++ "return xs.map(index => \x7b const idx = index; return <p>\x7bidx\x7d</p>; \x7d); \x7d")
    [plain "formal_parameters" 12 27 [plain "object_pattern" 13 26
      [plain "shorthand_property_identifier_pattern" 15 17 [],
       plain "shorthand_property_identifier_pattern" 19 20 [],
       plain "shorthand_property_identifier_pattern" 22 24 []]] (some "parameters")] 28
    [plain "return_statement" 30 98 [mapCall 37 2
      (plain "arrow_function" 44 96
        [plain "identifier" 44 49 [] (some "parameter"),
         plain "statement_block" 53 96
          [plain "lexical_declaration" 55 73 [plain "variable_declarator" 61 72
            [plain "identifier" 61 64 [] (some "name"),
             plain "identifier" 67 72 [] (some "value")]],
           plain "return_statement" 74 94 [plain "jsx_element" 81 93
            [plain "jsx_opening_element" 81 84
              [plain "identifier" 82 83 [] (some "name")] (some "open_tag"),
             plain "jsx_expression" 84 89 [plain "identifier" 85 88 []],
             plain "jsx_closing_element" 89 93
              [plain "identifier" 91 92 [] (some "name")] (some "close_tag")]]] (some "body")])
      none]]

/-- The index of the list is numbered, and not by the first number. -/
theorem index_search_ends_of_crowded : ∃ model reports,
    analyze crowdedModule {} [] = .ok model reports ∧
    ∃ l ∈ modelLists model,
      avoidedNames crowdedModule.source (reservedNames model).toFinset l.1
        = {"xs", "i", "i1", "index", "idx"} ∧
      (∃ steps, (Search.step {"xs", "i", "i1", "index", "idx"})^[steps] .start = .found "i2") ∧
      indexFor crowdedModule.source model l.1 = "i2" := by
  have test : endsIn (analyze crowdedModule {}) [] (fun model _ =>
      (modelLists model).any fun l =>
        takenNames crowdedModule.source model l.1 == ["xs", "i", "i1", "index", "idx"]) = true := by
    decide +kernel
  obtain ⟨model, reports, hmodel, hany⟩ := exists_ok_of_endsIn test
  obtain ⟨l, hl, hchecked⟩ := List.any_eq_true.1 hany
  have havoided : avoidedNames crowdedModule.source (reservedNames model).toFinset l.1
      = {"xs", "i", "i1", "index", "idx"} := by
    rw [← toFinset_takenNames, eq_of_beq hchecked]
    rfl
  obtain ⟨⟨steps, -, hsteps⟩, -, -, hnumbered⟩ :=
    (index_search_ends crowdedModule.source _ l.1).2 model rfl
  rw [havoided] at hsteps hnumbered
  obtain ⟨k, hleast, hindex⟩ := hnumbered (by decide)
  have hk : k = 2 := by
    obtain ⟨⟨hpos, hfree⟩, hbelow⟩ := hleast
    have hle : k ≤ 2 := hbelow ⟨by decide, by decide⟩
    have hne : k ≠ 1 := fun hone => hfree (hone ▸ by decide)
    omega
  subst hk
  refine ⟨model, reports, hmodel, l, hl, havoided, ⟨steps, ?_⟩, hindex⟩
  rw [hsteps, hindex]
  rfl

end Sample

end Sveltify.Assembly
