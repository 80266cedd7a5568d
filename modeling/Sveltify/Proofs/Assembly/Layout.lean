import Mathlib.Data.List.Flatten
import Mathlib.Data.List.Perm.Basic
import Sveltify.Proofs.Assembly.ScriptOrder

namespace Sveltify.Assembly

open Analysis Component Svelte

/-!
# The layout of scripts

A script starts with types and the declaration of the props. All other declarations come after that,
also the constants of the module which the default values of props may read: they keep their place
before the declarations of the component, but not before its props.

* `Layout.exists_groups`, `Layout.exists_entries`: the entries that its pieces become;
* `Layout.all_of_mem`, `Layout.all`: what all entries that are built have in common;
* `isBasic`: is the entry a cell, a statement or a placeholder?
* `PropsFree`: entries that declare no props;
* `props_before_module_constants`: where the declaration of the props stands.
-/

variable {src : Source} {model : Model} {indent : String}

/-! ### The entries of some pieces -/

/-- What goes with the entries of a list goes with those of a part of it. -/
theorem exists_sublist_of_forall₂ {α β : Type} {R : α → β → Prop} {as as' : List α} {bs : List β}
    (hsub : as'.Sublist as) (h : List.Forall₂ R as bs) :
    ∃ bs', bs'.Sublist bs ∧ List.Forall₂ R as' bs' := by
  induction hsub generalizing bs with
  | slnil => exact ⟨[], List.nil_sublist _, .nil⟩
  | cons a _ ih =>
    cases h with
    | cons _ hrest =>
      obtain ⟨bs', hbs, hall⟩ := ih hrest
      exact ⟨bs', hbs.cons _, hall⟩
  | cons_cons a _ ih =>
    cases h with
    | cons hab hrest =>
      obtain ⟨bs', hbs, hall⟩ := ih hrest
      exact ⟨_ :: bs', hbs.cons_cons _, .cons hab hall⟩

/-- Groups of one entry each, joined. -/
theorem forall₂_flatten {α β : Type} {R : α → List β → Prop} {S : α → β → Prop} {as : List α}
    {groups : List (List β)} (h : List.Forall₂ R as groups)
    (hsingle : ∀ a ∈ as, ∀ g, R a g → ∃ b, g = [b] ∧ S a b) : List.Forall₂ S as groups.flatten := by
  induction h with
  | nil => exact .nil
  | @cons a g as groups hg _ ih =>
    obtain ⟨b, rfl, hb⟩ := hsingle a (by simp) g hg
    exact .cons hb (ih fun a' ha' => hsingle a' (by simp [ha']))

/-- The groups of entries in the order in which their pieces are listed. -/
theorem Layout.exists_groups {script : List ScriptNode} (l : Layout src model indent script) :
    ∃ groups : List (List ScriptNode), groups.Perm l.groups ∧
      List.Forall₂ (Written src) (orderedPieces src model indent) groups := by
  have unnumbered : (orderedPieces src model indent).Perm (l.order.map Prod.fst) := by
    have := l.order_perm.map Prod.fst
    rw [List.zipIdx_map_fst] at this
    exact this.symm
  have written : List.Forall₂ (Written src) (l.order.map Prod.fst) l.groups := by
    rw [List.forall₂_map_left_iff]
    exact l.groups_written.imp fun _ _ h => h.1
  obtain ⟨groups, hgroups, hperm⟩ := List.perm_comp_forall₂ unnumbered written
  exact ⟨groups, hperm, hgroups⟩

/-- Some of the sorted pieces become entries of their own in the script. -/
theorem Layout.exists_entries {script : List ScriptNode} (l : Layout src model indent script)
    {pieces : List Piece} (hpieces : pieces.Sublist (orderedPieces src model indent)) :
    ∃ groups : List (List ScriptNode), groups.flatten.Subperm script ∧
      List.Forall₂ (Written src) pieces groups := by
  obtain ⟨all, hperm, hall⟩ := l.exists_groups
  obtain ⟨groups, hsub, hgroups⟩ := exists_sublist_of_forall₂ hpieces hall
  have inScript : l.groups.flatten.Sublist script := by
    have := (List.sublist_append_right (l.types ++ l.props.toList.map .props)
      l.groups.flatten).trans (List.sublist_append_left _ l.provisions)
    rwa [← l.parts] at this
  refine ⟨groups, ?_, hgroups⟩
  exact (hsub.flatten.subperm.trans hperm.flatten.subperm).trans inScript.subperm

/-! ### What all entries have in common -/

/-- All that is built for the piece has the property. -/
abbrev Piece.BuildsOnly (Q : ScriptNode → Prop) (p : Piece) : Prop :=
  Yields (fun entries => ∀ entry ∈ entries, Q entry) p.build

section All

variable {Q : ScriptNode → Prop} (hleft : ∀ ph, Q (.placeholder ph))
include hleft

/-- Written entries are of the sort that is built. -/
theorem Written.all {p : Piece} {entries : List ScriptNode} (h : Written src p entries)
    (hp : p.BuildsOnly Q) : ∀ entry ∈ entries, Q entry := by
  cases h with
  | built hrun => exact hp hrun
  | @left _ ph _ _ =>
    intro entry hentry
    rw [List.mem_singleton.1 hentry]
    exact hleft ph

/-- So are those of several pieces. -/
theorem all_of_written {pieces : List Piece} {entries : List ScriptNode}
    (h : List.Forall₂ (WrittenAs src) pieces entries) (hp : ∀ p ∈ pieces, p.BuildsOnly Q) :
    ∀ entry ∈ entries, Q entry := by
  intro entry hentry
  obtain ⟨p, hmem, hwritten⟩ := (exists_of_forall₂ h).2 entry hentry
  exact Written.all hleft hwritten (hp p hmem) entry (by simp)

/-- What all entries have that are built for the pieces of a component, the script has, its props
apart. -/
theorem Layout.all_of_mem {script : List ScriptNode} (l : Layout src model indent script)
    (hitem : ∀ item, (itemPiece src model item).BuildsOnly Q)
    (hordered : ∀ p ∈ orderedPieces src model indent, p.BuildsOnly Q)
    (hprovider : ∀ u ∈ model.contexts, u.direction = .provide →
      (providerPiece src model u).BuildsOnly Q) :
    ∀ entry ∈ l.types ++ l.groups.flatten ++ l.provisions, Q entry := by
  intro entry hentry
  rcases List.mem_append.1 hentry with hentry | hentry
  · rcases List.mem_append.1 hentry with hentry | hentry
    · refine all_of_written hleft l.types_written (fun p hp => ?_) entry hentry
      obtain ⟨item, -, rfl⟩ := List.mem_map.1 hp
      exact hitem item
    · obtain ⟨group, hgroup, hentry⟩ := List.mem_flatten.1 hentry
      obtain ⟨e, he, hwritten, -⟩ := (exists_of_forall₂ l.groups_written).2 group hgroup
      have hp := List.fst_mem_of_mem_zipIdx (l.order_perm.subset he)
      exact hwritten.all hleft (hordered _ hp) entry hentry
  · refine all_of_written hleft l.provisions_written (fun p hp => ?_) entry hentry
    obtain ⟨u, hu, rfl⟩ := List.mem_map.1 hp
    obtain ⟨hmem, hdirection⟩ := List.mem_filter.1 hu
    exact hprovider u hmem (beq_iff_eq.1 hdirection)

/-- The same where it does not matter which contexts the component provides. -/
theorem Layout.all {script : List ScriptNode} (l : Layout src model indent script)
    (hitem : ∀ item, (itemPiece src model item).BuildsOnly Q)
    (hordered : ∀ p ∈ orderedPieces src model indent, p.BuildsOnly Q)
    (hprovider : ∀ u, (providerPiece src model u).BuildsOnly Q) :
    ∀ entry ∈ l.types ++ l.groups.flatten ++ l.provisions, Q entry :=
  l.all_of_mem hleft hitem hordered fun u _ _ => hprovider u

end All

/-! ### Cells, statements and placeholders -/

/-- Is the entry a cell of state, a statement or a placeholder? -/
def isBasic : ScriptNode → Bool
  | .state _ | .raw _ | .placeholder _ => true
  | _ => false

/-- The piece becomes cells, statements and placeholders only. -/
abbrev Piece.BuildsBasic (p : Piece) : Prop :=
  Yields (fun entries => ∀ entry ∈ entries, isBasic entry = true) p.build

theorem Written.basic {p : Piece} {entries : List ScriptNode} (h : Written src p entries)
    (hp : p.BuildsBasic) : ∀ entry ∈ entries, isBasic entry = true :=
  h.all (fun _ => rfl) hp

/-- Statements around the component build basic entries. -/
theorem buildsBasic_itemPiece (item : ModuleItem) : (itemPiece src model item).BuildsBasic :=
  .bind fun _ => .pure (by simp [isBasic])

/-- So does state. -/
theorem buildsBasic_statePiece (b : StateBinding) :
    (statePiece src model indent b).BuildsBasic := by
  show Yields _ (stateNodes src model indent b)
  unfold stateNodes
  cases b.kind with
  | plain => exact .bind fun _ => .pure (by simp [isBasic])
  | reducer =>
    refine .bind fun _ => ?_
    cases nonEmpty? b.dispatch with
    | none => exact .pure (by simp [isBasic])
    | some dispatch =>
      have function : Yields (fun entry => isBasic entry = true)
          (dispatchFunction src model indent b dispatch) :=
        .bind fun _ => .bind fun _ => .bind fun _ => .pure rfl
      exact function.andThen fun entry h => .pure (by simpa using ⟨rfl, h⟩)

/-- So do local statements. -/
theorem buildsBasic_localPiece (l : LocalDeclaration) :
    (localPiece src model indent l).BuildsBasic := by
  show Yields _ (localNodes src model indent l)
  unfold localNodes
  cases l.kind with
  | constant | «variable» =>
    dsimp only
    split <;> exact .bind fun _ => .pure (by simp [isBasic])
  | _ => exact .bind fun _ => .pure (by simp [isBasic])

/-! ### Entries that declare no props -/

/-- None of the entries declares props. -/
def PropsFree (entries : List ScriptNode) : Prop := ∀ d, .props d ∉ entries

/-- No entry declares props. -/
theorem propsFree_iff {entries : List ScriptNode} :
    PropsFree entries ↔ ∀ entry ∈ entries, ∀ d, entry ≠ .props d :=
  ⟨fun h _ hentry d heq => h d (heq ▸ hentry), fun h d hd => h _ hd d rfl⟩

/-- No props are declared by what a piece becomes. -/
abbrev Piece.BuildsNoProps (p : Piece) : Prop := Yields PropsFree p.build

theorem Piece.BuildsBasic.noProps {p : Piece} (h : p.BuildsBasic) : p.BuildsNoProps := by
  intro s entries t hrun d hd
  simpa [isBasic] using h hrun _ hd

/-- Contexts declare no props. -/
theorem buildsNoProps_providerPiece (u : ContextUse) :
    (providerPiece src model u).BuildsNoProps :=
  .bind fun _ => .pure (by simp [PropsFree])

/-- Only the declaration of the props declares props. -/
theorem buildsNoProps_of_mem {p : Piece} (hp : p ∈ orderedPieces src model indent) :
    p.BuildsNoProps := by
  simp only [orderedPieces, declarationPieces, kindPieces, List.mem_append, List.mem_map] at hp
  rcases hp with ⟨item, -, rfl⟩ |
    (((((⟨b, -, rfl⟩ | ⟨d, -, rfl⟩) | ⟨e, -, rfl⟩) | ⟨u, -, rfl⟩) | ⟨r, -, rfl⟩) | ⟨l, -, rfl⟩)
  · exact (buildsBasic_itemPiece item).noProps
  · exact (buildsBasic_statePiece b).noProps
  · exact .bind fun _ => .pure (by simp [PropsFree])
  · exact .bind fun _ => .bind fun _ => .pure (by simp [PropsFree])
  · exact .bind fun _ => .bind fun _ => .bind fun _ => .pure (by simp [PropsFree])
  · exact .bind fun _ => .pure (by simp [PropsFree])
  · exact (buildsBasic_localPiece l).noProps

/-- Apart from the declaration of the props no entry declares props. -/
theorem Layout.propsFree {script : List ScriptNode} (l : Layout src model indent script) :
    PropsFree (l.types ++ l.groups.flatten ++ l.provisions) := by
  have only {p : Piece} (h : p.BuildsNoProps) : p.BuildsOnly fun entry => ∀ d, entry ≠ .props d :=
    fun _ _ _ hrun => propsFree_iff.1 (h hrun)
  refine propsFree_iff.2 (l.all (by simp) (fun item => ?_) (fun _ hp => ?_) fun u => ?_)
  · exact only (buildsBasic_itemPiece item).noProps
  · exact only (buildsNoProps_of_mem hp)
  · exact only (buildsNoProps_providerPiece u)

/-! ### Where the props are declared -/

/-- The component receives props: under one name, by a pattern, or as a forwarded ref. -/
def ReceivesProps (model : Model) : Prop :=
  model.props.pattern ≠ .absent ∨ ∃ p ∈ model.props.bindings, p.isBindable = true

/-- Ref entries are there for bindable props. -/
theorem refEntries_isEmpty_iff :
    (refEntries model).isEmpty = true ↔ ¬∃ p ∈ model.props.bindings, p.isBindable = true := by
  simp [refEntries]

/-- Props are declared just if the component receives some. -/
theorem yields_propsDeclaration :
    Yields (fun props => props.isSome = true ↔ ReceivesProps model)
      (propsDeclaration src model) := by
  unfold propsDeclaration ReceivesProps
  cases model.props.pattern with
  | identifier =>
    dsimp only
    split <;> exact .pure (by simp)
  | absent =>
    refine .pure ?_
    have := @refEntries_isEmpty_iff model
    split <;> simp_all
  | destructured => exact .bind fun _ => .pure (by simp)

/-- Of two entries of a sorted list, the one that does not come second comes first. -/
theorem pair_sublist {α : Type} {P : α → α → Prop} {l : List α} (h : l.Pairwise P) {x y : α}
    (hx : x ∈ l) (hy : y ∈ l) (hne : y ≠ x) (hyx : ¬P y x) : [x, y].Sublist l := by
  obtain ⟨as, bs, rfl⟩ := List.append_of_mem hx
  rcases List.mem_append.1 hy with hy | hy
  · exact absurd ((List.pairwise_append.1 h).2.2 y hy x (by simp)) hyx
  · have hbs : y ∈ bs := (List.mem_cons.1 hy).resolve_left hne
    exact (List.Sublist.cons_cons x (List.singleton_sublist.2 hbs)).trans
      (List.sublist_append_right _ _)

/-- **Props are declared before the constants of the module.** Whatever component is assembled, its
props are declared once, if it receives any, and only types come before that. The declarations
around the component are all behind the props, in source order with those of the component itself:
one that starts no later than a declaration of the component comes before it. -/
theorem props_before_module_constants {reports reports' : List Report} {c : SvelteComponent}
    (h : toSvelte src model indent reports = .ok c reports') :
    ∃ l : Layout src model indent c.script,
      (l.props.isSome = true ↔ ReceivesProps model) ∧
      PropsFree (l.types ++ l.groups.flatten ++ l.provisions) ∧
      ∀ constant ∈ (kindPieces src model .declaration model.moduleItems).zipIdx,
        ∀ own ∈ (declarationPieces src model indent).zipIdx
            (kindPieces src model .declaration model.moduleItems).length,
          constant.1.node.start ≤ own.1.node.start → [constant, own].Sublist l.order := by
  obtain ⟨l⟩ := exists_layout h
  obtain ⟨p, q, hprops⟩ := l.props_written
  refine ⟨l, yields_propsDeclaration hprops, l.propsFree, fun constant hconstant own hown hle => ?_⟩
  -- The numbers of the declarations around the component are the smaller ones.
  have numbers : constant.2 < own.2 := by
    have := List.snd_lt_add_of_mem_zipIdx hconstant
    have := List.le_snd_of_mem_zipIdx hown
    omega
  have listed : ∀ e ∈ (kindPieces src model .declaration model.moduleItems).zipIdx ++
      (declarationPieces src model indent).zipIdx
        (kindPieces src model .declaration model.moduleItems).length, e ∈ l.order := by
    intro e he
    refine l.order_perm.mem_iff.2 ?_
    rwa [orderedPieces, List.zipIdx_append, Nat.zero_add]
  refine pair_sublist l.order_sorted (listed _ (List.mem_append_left _ hconstant))
    (listed _ (List.mem_append_right _ hown)) ?_ ?_
  · rintro rfl
    exact Nat.lt_irrefl _ numbers
  · rintro (hlt | ⟨-, hnumber⟩) <;> omega

section Sample

open Node

/-- A constant, and a component with a prop whose default is the constant. -/
def defaultModule (text : String) (statements : List Node) : Module where
  source := .ofText "App.jsx" text
  root :=
    .numbered <| plain "program" 0 text.length
      [plain "lexical_declaration" 0 12 [plain "variable_declarator" 6 11
        [plain "identifier" 6 7 [] (some "name"), plain "number" 10 11 [] (some "value")]],
       plain "function_declaration" 13 text.length
        [plain "identifier" 22 25 [] (some "name"),
         plain "formal_parameters" 25 36 [plain "object_pattern" 26 35
          [plain "object_assignment_pattern" 28 33
            [plain "shorthand_property_identifier_pattern" 28 29 [] (some "left"),
             plain "identifier" 32 33 [] (some "right")]]] (some "parameters"),
         plain "statement_block" 37 text.length statements (some "body")]]
  dialect := .javascript

/-- A component of this kind with a cell. -/
def cellDefaultModule : Module :=
  defaultModule
    "const K = 1;\nfunction App(\x7b a = K \x7d) \x7b const [x, setX] = useState(a); return <p/>; \x7d"
    [plain "lexical_declaration" 39 69 [plain "variable_declarator" 45 68
      [plain "array_pattern" 45 54 [plain "identifier" 46 47 [], plain "identifier" 49 53 []]
        (some "name"),
       plain "call_expression" 57 68
        [plain "identifier" 57 65 [] (some "function"),
         plain "arguments" 65 68 [plain "identifier" 66 67 []] (some "arguments")] (some "value")]],
     plain "return_statement" 70 82 [emptyElement 77 none]]

/-- The constant comes behind the props and before the cell. -/
theorem props_before_module_constants_of_cell : ∃ model reports c reports',
    analyze cellDefaultModule {} [] = .ok model reports ∧
    toSvelte cellDefaultModule.source model "  " reports = .ok c reports' ∧
    (kindPieces cellDefaultModule.source model .declaration model.moduleItems).map
      (·.node.start) = [0] ∧
    (declarationPieces cellDefaultModule.source model "  ").map (·.node.start) = [45] ∧
    ∃ l : Layout cellDefaultModule.source model "  " c.script, l.props.isSome = true ∧
      PropsFree (l.types ++ l.groups.flatten ++ l.provisions) ∧
      ∀ constant ∈ (kindPieces cellDefaultModule.source model .declaration
          model.moduleItems).zipIdx,
        ∀ own ∈ (declarationPieces cellDefaultModule.source model "  ").zipIdx
            (kindPieces cellDefaultModule.source model .declaration model.moduleItems).length,
          constant.1.node.start ≤ own.1.node.start → [constant, own].Sublist l.order := by
  have test : endsIn (analyze cellDefaultModule {}) [] (fun model reports =>
      endsIn (toSvelte cellDefaultModule.source model "  ") reports (fun _ _ =>
        model.props.pattern == .destructured &&
          ((kindPieces cellDefaultModule.source model .declaration model.moduleItems).map
              (·.node.start) == [0] &&
            (declarationPieces cellDefaultModule.source model "  ").map (·.node.start)
              == [45]))) = true := by
    decide +kernel
  obtain ⟨model, reports, hmodel, hchecked⟩ := exists_ok_of_endsIn test
  obtain ⟨c, reports', hrun, hchecked⟩ := exists_ok_of_endsIn hchecked
  obtain ⟨hpattern, hchecked⟩ := Bool.and_eq_true_iff.1 hchecked
  obtain ⟨hconstants, hown⟩ := Bool.and_eq_true_iff.1 hchecked
  have receives : ReceivesProps model := by
    left
    rw [eq_of_beq hpattern]
    decide
  obtain ⟨l, hprops, hfree, horder⟩ := props_before_module_constants hrun
  exact ⟨model, reports, c, reports', hmodel, hrun, eq_of_beq hconstants, eq_of_beq hown, l,
    hprops.2 receives, hfree, horder⟩

/-- A component of this kind without statements of its own. -/
def bareDefaultModule : Module :=
  defaultModule "const K = 1;\nfunction App(\x7b a = K \x7d) \x7b return <p/>; \x7d"
    [plain "return_statement" 39 51 [emptyElement 46 none]]

/-- The constant is not declared before the props that read it. -/
theorem module_constant_behind_props : ∃ model reports c reports',
    analyze bareDefaultModule {} [] = .ok model reports ∧
    toSvelte bareDefaultModule.source model "  " reports = .ok c reports' ∧
    model.moduleItems.map (fun i => (i.kind, decide (i.node.stop ≤ model.node.start))) =
      [(.declaration, true)] ∧
    c.script = [.props { entries := [{ name := "a", default := some "K" }] },
      .raw "const K = 1;"] := by
  have test : endsIn (analyze bareDefaultModule {}) [] (fun model reports =>
      model.moduleItems.map (fun i => (i.kind, decide (i.node.stop ≤ model.node.start))) ==
          [(.declaration, true)] &&
        endsIn (toSvelte bareDefaultModule.source model "  ") reports (fun c _ =>
          c.script == [.props { entries := [{ name := "a", default := some "K" }] },
            .raw "const K = 1;"])) = true := by
    decide +kernel
  obtain ⟨model, reports, hmodel, hchecked⟩ := exists_ok_of_endsIn test
  obtain ⟨hitems, hends⟩ := Bool.and_eq_true_iff.1 hchecked
  obtain ⟨c, reports', hrun, hscript⟩ := exists_ok_of_endsIn hends
  exact ⟨model, reports, c, reports', hmodel, hrun, eq_of_beq hitems, eq_of_beq hscript⟩

end Sample

end Sveltify.Assembly
