import Sveltify.Proofs.Assembly.Placeholders

namespace Sveltify.Assembly

open Analysis Component Svelte

/-!
# Scripts keep everything in source order

Every binding and statement of a component ends once in the script: as the entries that are built
for it, or as one placeholder. Types and props come first and provided contexts last; what stands in
between is in source order.

* `Written`: the entries that a piece becomes;
* `Precedes`: one numbered piece comes before another;
* `inSourceOrder_append_inSourceOrder`: groups that are sorted before others are put in front of
  them end in the same order;
* `exists_order`: sorting groups of entries sorts the pieces they belong to;
* `Layout`: the parts of a script; `exists_layout`: every script that is assembled has these parts;
* `script_in_source_order`: how the scripts of a component are made up.
-/

variable {src : Source} {model : Model} {indent : String}

/-! ### What becomes of a piece -/

/-- The entries that a piece becomes: what is built for it, or one placeholder that keeps its source
if that is refused. -/
inductive Written (src : Source) (p : Piece) : List ScriptNode → Prop
  | built {entries : List ScriptNode} {s t : Progress} (h : p.build s = .ok entries t) :
      Written src p entries
  | left {r : Refusal} {ph : Placeholder} (hr : refusalOf p.build = some r)
      (hph : leftoverIn ph = leftoverOf src p.node p.before r.message) :
      Written src p [.placeholder ph]

/-- The group of a piece starts where the piece does and holds what the piece becomes. `Q` holds of
the entries if it does of all that are built and of single placeholders. -/
theorem yields_groupFor {Q : List ScriptNode → Prop} {p : Piece} (hbuild : Yields Q p.build)
    (hleft : ∀ ph, Q [.placeholder ph]) :
    Yields (fun g => g.start = p.node.start ∧ Written src p g.nodes ∧ Q g.nodes)
      (groupFor src p.node p.before p.build) := by
  intro s g t hrun
  obtain ⟨entries, s₁, hentries, hg⟩ := bind_ok_iff.1 hrun
  cases hg
  refine ⟨rfl, ?_⟩
  show Written src p entries ∧ Q entries
  cases hx : p.build s with
  | ok built s₂ =>
    rw [Ends.orElse_of_ok hx] at hentries
    cases hentries
    exact ⟨.built hx, hbuild hx⟩
  | error e s₂ =>
    cases e with
    | refused r =>
      obtain ⟨hr, hkind⟩ := p.ends.refused hx
      rw [Ends.orElse_of_refused hx hkind] at hentries
      cases hentries
      exact ⟨.left hr rfl, hleft _⟩
    | incomplete =>
      rw [Ends.orElse_of_incomplete hx] at hentries
      cases hentries

/-- The group of a piece that becomes at least one entry. -/
structure GroupOf (src : Source) (p : Piece) (g : Group) : Prop where
  start : g.start = p.node.start
  written : Written src p g.nodes
  nonempty : g.nodes ≠ []

/-- Some entry is built for the piece whenever it is not refused. -/
abbrev Piece.Builds (p : Piece) : Prop := Yields (fun entries => entries ≠ []) p.build

/-- A group is built for its piece. -/
theorem yields_groupOf {p : Piece} (h : p.Builds) :
    Yields (GroupOf src p) (groupFor src p.node p.before p.build) := by
  intro s g t hrun
  obtain ⟨hstart, hwritten, hnonempty⟩ := yields_groupFor h (fun ph => by simp) hrun
  exact ⟨hstart, hwritten, hnonempty⟩

theorem yields_groupsOf {γ : Type} {piece : γ → Piece} (h : ∀ c, (piece c).Builds) (l : List γ) :
    Yields (List.Forall₂ (GroupOf src) (l.map piece))
      (l.mapM fun c => groupFor src (piece c).node (piece c).before (piece c).build) := by
  intro s groups t hrun
  rw [List.forall₂_map_left_iff]
  exact Yields.mapM (fun c _ => yields_groupOf (h c)) hrun

/-- The groups of the declarations, kind after kind. -/
theorem yields_declarationGroups :
    Yields (List.Forall₂ (GroupOf src) (declarationPieces src model indent))
      (declarationGroups src model indent) := by
  -- No piece is built to nothing.
  have state (b : StateBinding) : (statePiece src model indent b).Builds := by
    show Yields _ (stateNodes src model indent b)
    unfold stateNodes
    cases b.kind with
    | plain => exact .bind fun _ => .pure (by simp)
    | reducer =>
      refine .bind fun _ => ?_
      cases nonEmpty? b.dispatch with
      | none => exact .pure (by simp)
      | some dispatch => exact .bind fun _ => .pure (by simp)
  have statement (l : LocalDeclaration) : (localPiece src model indent l).Builds := by
    show Yields _ (localNodes src model indent l)
    unfold localNodes
    cases l.kind with
    | constant | «variable» =>
      dsimp only
      split <;> exact .bind fun _ => .pure (by simp)
    | _ => exact .bind fun _ => .pure (by simp)
  have derived (d : DerivedBinding) : (derivedPiece src model d).Builds :=
    .bind fun _ => .pure (by simp)
  have effect (e : EffectBinding) : (effectPiece src model e).Builds :=
    .bind fun _ => .bind fun _ => .pure (by simp)
  have consumer (u : ContextUse) : (consumerPiece src model u).Builds :=
    .bind fun _ => .bind fun _ => .bind fun _ => .pure (by simp)
  have ref (r : RefBinding) : (refPiece src model r).Builds := .bind fun _ => .pure (by simp)
  refine (yields_groupsOf state _).andThen fun _ hstate => ?_
  refine (yields_groupsOf derived _).andThen fun _ hderived => ?_
  refine (yields_groupsOf effect _).andThen fun _ heffects => ?_
  refine (yields_groupsOf consumer _).andThen fun _ hconsumers => ?_
  refine (yields_groupsOf ref _).andThen fun _ hrefs => ?_
  refine (yields_groupsOf statement _).andThen fun _ hlocals => .pure ?_
  exact List.rel_append (List.rel_append (List.rel_append (List.rel_append
    (List.rel_append hstate hderived) heffects) hconsumers) hrefs) hlocals

/-! ### Pieces that become one entry -/

/-- The piece becomes the one entry. -/
def WrittenAs (src : Source) (p : Piece) (entry : ScriptNode) : Prop := Written src p [entry]

theorem yields_single {p : Piece} (h : Yields (fun entries => ∃ entry, entries = [entry]) p.build) :
    Yields (fun g => ∃ entry, g.nodes = [entry] ∧ WrittenAs src p entry)
      (groupFor src p.node p.before p.build) := by
  intro s g t hrun
  obtain ⟨-, hwritten, entry, hentry⟩ := yields_groupFor h (fun ph => ⟨_, rfl⟩) hrun
  rw [hentry] at hwritten
  exact ⟨entry, hentry, hwritten⟩

/-- One entry for each provided context. -/
theorem yields_provisionNodes :
    Yields (List.Forall₂ (WrittenAs src) (provisionPieces src model))
      (provisionNodes src model) := by
  have each (u : ContextUse) :
      Yields (fun g => ∃ entry, g.nodes = [entry] ∧ WrittenAs src (providerPiece src model u) entry)
        (do
          useImports ["setContext"]
          groupFor src u.node "" (providerNodes src model u)) :=
    .bind fun _ => yields_single (p := providerPiece src model u) (.bind fun _ => .pure ⟨_, rfl⟩)
  refine (Yields.mapM fun u _ => each u).andThen fun groups hgroups => .pure ?_
  rw [provisionPieces, List.forall₂_map_left_iff]
  generalize model.contexts.filter (·.direction == .provide) = uses at hgroups ⊢
  induction hgroups with
  | nil => exact .nil
  | cons hg _ ih =>
    obtain ⟨entry, hentry, hwritten⟩ := hg
    rw [List.flatMap_cons, hentry]
    exact .cons hwritten ih

/-! ### Statements around a component -/

section

variable (src : Source) (model : Model)

/-- The statements of one kind. -/
def kindPieces (kind : ModuleItemKind) (items : List ModuleItem) : List Piece :=
  (items.filter (·.kind == kind)).map (itemPiece src model)

/-- The statements of a module have been put where they go. -/
structure Placed (items : List ModuleItem) (parts : ModuleParts) : Prop where
  types : List.Forall₂ (WrittenAs src) (kindPieces src model .typing items) parts.types
  moduleScript : List.Forall₂ (WrittenAs src) (kindPieces src model .exported items)
    parts.moduleScript
  declarations : List.Forall₂ (GroupOf src) (kindPieces src model .declaration items)
    parts.declarations

end

theorem kindPieces_concat (kind : ModuleItemKind) (items : List ModuleItem) (item : ModuleItem) :
    kindPieces src model kind (items ++ [item]) =
      kindPieces src model kind items ++
        if item.kind = kind then [itemPiece src model item] else [] := by
  unfold kindPieces
  rw [List.filter_append, List.map_append]
  by_cases h : item.kind = kind <;> simp [h]

/-- Adding a statement puts it in its one place. -/
theorem yields_addItem (contextKeys : List String) {items : List ModuleItem} {parts : ModuleParts}
    (h : Placed src model items parts) (item : ModuleItem) :
    Yields (Placed src model (items ++ [item])) (addItem src model contextKeys parts item) := by
  -- A statement is written as one entry, which may be a placeholder.
  have single : Yields (fun g => g.start = (itemPiece src model item).node.start ∧
      Written src (itemPiece src model item) g.nodes ∧ ∃ entry, g.nodes = [entry])
      (statementGroup src model item) :=
    yields_groupFor (Q := fun entries => ∃ entry, entries = [entry])
      (p := itemPiece src model item) (.bind fun _ => .pure ⟨_, rfl⟩) (fun ph => ⟨_, rfl⟩)
  unfold addItem
  cases hkind : item.kind with
  | importing =>
    refine .bind fun text => .pure ⟨?_, ?_, ?_⟩
    · simpa [kindPieces_concat, hkind] using h.types
    · simpa [kindPieces_concat, hkind] using h.moduleScript
    · simpa [kindPieces_concat, hkind] using h.declarations
  | typing =>
    refine single.andThen ?_
    rintro g ⟨-, hwritten, entry, hentry⟩
    rw [hentry] at hwritten
    refine .pure ⟨?_, ?_, ?_⟩
    · rw [kindPieces_concat, if_pos hkind, hentry]
      exact List.rel_append h.types (.cons hwritten .nil)
    · simpa [kindPieces_concat, hkind] using h.moduleScript
    · simpa [kindPieces_concat, hkind] using h.declarations
  | exported =>
    refine single.andThen ?_
    rintro g ⟨-, hwritten, entry, hentry⟩
    rw [hentry] at hwritten
    refine .pure ⟨?_, ?_, ?_⟩
    · simpa [kindPieces_concat, hkind] using h.types
    · rw [kindPieces_concat, if_pos hkind, hentry]
      exact List.rel_append h.moduleScript (.cons hwritten .nil)
    · simpa [kindPieces_concat, hkind] using h.declarations
  | declaration =>
    refine single.andThen ?_
    rintro g ⟨hstart, hwritten, entry, hentry⟩
    have group : GroupOf src (itemPiece src model item) g :=
      ⟨hstart, hwritten, by rw [hentry]; simp⟩
    refine .pure ⟨?_, ?_, ?_⟩
    · simpa [kindPieces_concat, hkind] using h.types
    · simpa [kindPieces_concat, hkind] using h.moduleScript
    · rw [kindPieces_concat, if_pos hkind]
      exact List.rel_append h.declarations (.cons group .nil)

/-- Statements are placed by their kind. -/
theorem yields_moduleParts :
    Yields (Placed src model model.moduleItems) (moduleParts src model) := by
  have start : Placed src model [] {} := ⟨.nil, .nil, .nil⟩
  exact Yields.foldlM (I := Placed src model)
    (fun done parts item hparts => yields_addItem _ hparts item) model.moduleItems start

/-! ### Source order -/

/-- An entry that is put in front of a list is sorted into the list behind all that must come before
it. -/
theorem mergeSort_cons_eq {α : Type} {le : α → α → Bool}
    (trans : ∀ a b c, le a b = true → le b c = true → le a c = true)
    (total : ∀ a b, (le a b || le b a) = true) (a : α) (l : List α) :
    (a :: l).mergeSort le =
      (l.mergeSort le).takeWhile (!le a ·) ++ a :: (l.mergeSort le).dropWhile (!le a ·) := by
  obtain ⟨l₁, l₂, hcons, hrest, hfront⟩ := List.mergeSort_cons trans total a l
  have sorted := List.pairwise_mergeSort trans total (a :: l)
  rw [hcons] at sorted
  have behind : ∀ b ∈ l₂, le a b = true :=
    (List.pairwise_cons.1 (List.pairwise_append.1 sorted).2.1).1
  have stop : l₂.takeWhile (!le a ·) = [] ∧ l₂.dropWhile (!le a ·) = l₂ := by
    cases l₂ with
    | nil => exact ⟨rfl, rfl⟩
    | cons b l₂ =>
      have hb := behind b List.mem_cons_self
      exact ⟨List.takeWhile_cons_of_neg (by simp [hb]), List.dropWhile_cons_of_neg (by simp [hb])⟩
  rw [hcons, hrest, List.takeWhile_append_of_pos hfront, List.dropWhile_append_of_pos hfront,
    stop.1, stop.2, List.append_nil]

/-- Groups that are sorted before others are put in front of them end in the same order as if all
were sorted at once: those at the same offset stay as they were. -/
theorem inSourceOrder_append_inSourceOrder (front groups : List Group) :
    inSourceOrder (front ++ inSourceOrder groups) = inSourceOrder (front ++ groups) := by
  have trans : ∀ a b c : Group, decide (a.start ≤ b.start) = true →
      decide (b.start ≤ c.start) = true → decide (a.start ≤ c.start) = true := by
    simp only [decide_eq_true_eq]
    omega
  have total : ∀ a b : Group,
      (decide (a.start ≤ b.start) || decide (b.start ≤ a.start)) = true := by
    simp only [Bool.or_eq_true, decide_eq_true_eq]
    omega
  unfold inSourceOrder
  induction front with
  | nil => exact List.mergeSort_of_pairwise (List.pairwise_mergeSort trans total groups)
  | cons g front ih =>
    rw [List.cons_append, List.cons_append, mergeSort_cons_eq trans total g,
      mergeSort_cons_eq trans total g, ih]

/-- Of two numbered pieces, the one comes before the other in the source. Of two at the same offset
it has the smaller number. -/
def Precedes (a b : Piece × Nat) : Prop :=
  a.1.node.start < b.1.node.start ∨ a.1.node.start = b.1.node.start ∧ a.2 < b.2

/-- Sorting the groups of pieces sorts the pieces, with those at the same offset in the order in
which they are listed. -/
theorem exists_order {pieces : List Piece} {groups : List Group}
    (h : List.Forall₂ (GroupOf src) pieces groups) :
    ∃ order : List (Piece × Nat), order.Perm pieces.zipIdx ∧ order.Pairwise Precedes ∧
      List.Forall₂ (fun e g => GroupOf src e.1 g) order (inSourceOrder groups) := by
  obtain ⟨hlength, hpair⟩ := List.forall₂_iff_zip.1 h
  -- The groups are sorted together with their pieces and numbers.
  let le (a b : Piece × Group) : Bool := decide (a.2.start ≤ b.2.start)
  let sorted := (pieces.zip groups).zipIdx.mergeSort (List.zipIdxLE le)
  have perm : sorted.Perm (pieces.zip groups).zipIdx := List.mergeSort_perm _ _
  have groupOf : ∀ e ∈ sorted, GroupOf src e.1.1 e.1.2 := by
    intro e he
    exact hpair (List.fst_mem_of_mem_zipIdx (perm.subset he))
  have numbered : (pieces.zip groups).zipIdx.map (fun e => (e.1.1, e.2)) = pieces.zipIdx := by
    have := List.zipIdx_map (f := Prod.fst) (l := pieces.zip groups) (k := 0)
    rw [List.map_fst_zip (by omega)] at this
    exact this.symm
  have sortedGroups : sorted.map (fun e => e.1.2) = inSourceOrder groups := by
    have merged : sorted.map (fun e => e.1) = (pieces.zip groups).mergeSort le :=
      List.mergeSort_zipIdx
    calc sorted.map (fun e => e.1.2)
        = (sorted.map (fun e => e.1)).map Prod.snd := by rw [List.map_map]; rfl
      _ = ((pieces.zip groups).map Prod.snd).mergeSort fun a b => decide (a.start ≤ b.start) := by
          rw [merged]
          exact List.map_mergeSort fun _ _ _ _ => rfl
      _ = inSourceOrder groups := by rw [List.map_snd_zip (by omega)]; rfl
  have ascending : sorted.Pairwise fun a b => List.zipIdxLE le a b = true := by
    refine List.pairwise_mergeSort (List.zipIdxLE_trans ?_) (List.zipIdxLE_total ?_) _
    · intro a b c hab hbc
      simp only [le, decide_eq_true_eq] at *
      omega
    · intro a b
      simp only [le, Bool.or_eq_true, decide_eq_true_eq]
      omega
  have distinct : sorted.Pairwise fun a b => a.2 ≠ b.2 := by
    have numbers : (sorted.map Prod.snd).Nodup := by
      rw [(perm.map Prod.snd).nodup_iff, List.zipIdx_map_snd]
      exact List.nodup_range'
    exact List.pairwise_map.1 numbers
  refine ⟨sorted.map fun e => (e.1.1, e.2), numbered ▸ perm.map _, ?_, ?_⟩
  · rw [List.pairwise_map]
    refine (ascending.and distinct).imp_of_mem fun {a b} ha hb hab => ?_
    -- Each group starts where its piece does.
    have hstart := (groupOf a ha).start
    have hstart' := (groupOf b hb).start
    obtain ⟨hle, hne⟩ := hab
    show a.1.1.node.start < b.1.1.node.start ∨
      a.1.1.node.start = b.1.1.node.start ∧ a.2 < b.2
    simp only [List.zipIdxLE, le, decide_eq_true_eq] at hle
    split at hle
    · split at hle
      · have := of_decide_eq_true hle
        omega
      · omega
    · cases hle
  · rw [← sortedGroups, List.forall₂_map_left_iff, List.forall₂_map_right_iff, List.forall₂_same]
    exact groupOf

/-! ### Scripts -/

/-- The declarations that are sorted into the source order: those around the component, and then its
own. -/
def orderedPieces (src : Source) (model : Model) (indent : String) : List Piece :=
  kindPieces src model .declaration model.moduleItems ++ declarationPieces src model indent

/-- The parts of the script of a component. Each piece of the component becomes some entries, once
and in its part. -/
structure Layout (src : Source) (model : Model) (indent : String) (script : List ScriptNode) where
  types : List ScriptNode
  props : Option PropsDeclaration
  /-- The pieces in the order in which they are written, with the numbers that tell them apart. -/
  order : List (Piece × Nat)
  groups : List (List ScriptNode)
  provisions : List ScriptNode
  parts : script = types ++ props.toList.map .props ++ groups.flatten ++ provisions
  types_written :
    List.Forall₂ (WrittenAs src) (kindPieces src model .typing model.moduleItems) types
  props_written : ∃ p q, propsDeclaration src model p = .ok props q
  order_perm : order.Perm (orderedPieces src model indent).zipIdx
  order_sorted : order.Pairwise Precedes
  groups_written :
    List.Forall₂ (fun e entries => Written src e.1 entries ∧ entries ≠ []) order groups
  provisions_written : List.Forall₂ (WrittenAs src) (provisionPieces src model) provisions

/-- Every script that is assembled has these parts, with the props that are declared first, and what
the module exports becomes one entry of the module script each. -/
theorem exists_parts {reports reports' : List Report} {c : SvelteComponent}
    (h : toSvelte src model indent reports = .ok c reports') :
    ∃ l : Layout src model indent c.script,
      (∃ q, propsDeclaration src model { reports } = .ok l.props q) ∧
      List.Forall₂ (WrittenAs src) (kindPieces src model .exported model.moduleItems)
        c.moduleScript := by
  obtain ⟨q, hrun, -⟩ := assembleComponent_of_toSvelte h
  obtain ⟨a, rfl⟩ := exists_assembled hrun
  -- Groups are sorted by where they start, and each starts where its piece does.
  have placed := yields_moduleParts a.parts_run
  obtain ⟨order, hperm, hsorted, hall⟩ :=
    exists_order (List.rel_append placed.declarations (yields_declarationGroups a.groups_run))
  refine ⟨{
    types := a.parts.types
    props := a.props
    order := order
    groups := (inSourceOrder (a.parts.declarations ++ a.groups)).map (·.nodes)
    provisions := a.provisions
    parts := by rw [← List.flatMap_def]; rfl
    types_written := placed.types
    props_written := ⟨_, a.p₁, a.props_run⟩
    order_perm := hperm
    order_sorted := hsorted
    groups_written := ?_
    provisions_written := yields_provisionNodes a.provisions_run },
    ⟨a.p₁, a.props_run⟩, placed.moduleScript⟩
  rw [List.forall₂_map_right_iff]
  exact hall.imp fun e g hg => ⟨hg.written, hg.nonempty⟩

/-- Every script that is assembled has a layout. -/
theorem exists_layout {reports reports' : List Report} {c : SvelteComponent}
    (h : toSvelte src model indent reports = .ok c reports') :
    Nonempty (Layout src model indent c.script) := by
  obtain ⟨l, -⟩ := exists_parts h
  exact ⟨l⟩

/-- What the module exports becomes one entry of the module script each. -/
theorem moduleScript_written {reports reports' : List Report} {c : SvelteComponent}
    (h : toSvelte src model indent reports = .ok c reports') :
    List.Forall₂ (WrittenAs src) (kindPieces src model .exported model.moduleItems)
      c.moduleScript := by
  obtain ⟨-, -, hmodule⟩ := exists_parts h
  exact hmodule

/-- **Scripts keep everything in source order.** Whatever component is assembled, its script is made
up of one entry for each type, the declaration of the props, some entries for each declaration, and
one entry for each provided context. Each piece is there once, as what is built for it or as one
placeholder. The declarations are in the order of their source, and those at the same offset in the
order in which they are listed here: those around the component, then its state, derived values,
effects, consumed contexts, refs and other statements. What the module exports becomes one entry of
the module script each. -/
theorem script_in_source_order {reports reports' : List Report} {c : SvelteComponent}
    (h : toSvelte src model indent reports = .ok c reports') :
    ∃ (types : List ScriptNode) (props : Option PropsDeclaration) (order : List (Piece × Nat))
      (groups : List (List ScriptNode)) (provisions : List ScriptNode),
      c.script = types ++ props.toList.map .props ++ groups.flatten ++ provisions ∧
      List.Forall₂ (WrittenAs src) (kindPieces src model .typing model.moduleItems) types ∧
      (∃ q, propsDeclaration src model { reports } = .ok props q) ∧
      order.Perm (kindPieces src model .declaration model.moduleItems
        ++ declarationPieces src model indent).zipIdx ∧
      order.Pairwise Precedes ∧
      List.Forall₂ (fun e entries => Written src e.1 entries ∧ entries ≠ []) order groups ∧
      List.Forall₂ (WrittenAs src) (provisionPieces src model) provisions ∧
      List.Forall₂ (WrittenAs src) (kindPieces src model .exported model.moduleItems)
        c.moduleScript := by
  obtain ⟨l, hprops, hmodule⟩ := exists_parts h
  exact ⟨l.types, l.props, l.order, l.groups, l.provisions, l.parts, l.types_written, hprops,
    l.order_perm, l.order_sorted, l.groups_written, l.provisions_written, hmodule⟩

section Sample

open Node

/-- A component with a cell, and a constant after it. -/
def constantAfterModule : Module where
  source := .ofText "App.jsx"
    "function App() \x7b const [x, setX] = useState(1); return <p/>; \x7d\nconst k = 1;"
  root :=
    .numbered <| plain "program" 0 75
      [plain "function_declaration" 0 62
        [plain "identifier" 9 12 [] (some "name"),
         plain "statement_block" 15 62
          [plain "lexical_declaration" 17 47 [plain "variable_declarator" 23 46
            [plain "array_pattern" 23 32 [plain "identifier" 24 25 [], plain "identifier" 27 31 []]
              (some "name"),
             plain "call_expression" 35 46
              [plain "identifier" 35 43 [] (some "function"),
               plain "arguments" 43 46 [plain "number" 44 45 []] (some "arguments")]
              (some "value")]],
           plain "return_statement" 48 60 [emptyElement 55 none]] (some "body")],
       plain "lexical_declaration" 63 75 [plain "variable_declarator" 69 74
        [plain "identifier" 69 70 [] (some "name"), plain "number" 73 74 [] (some "value")]]]
  dialect := .javascript

/-- The cell and the constant are both in the script. -/
theorem script_in_source_order_of_constant : ∃ model reports c reports',
    analyze constantAfterModule {} [] = .ok model reports ∧
    toSvelte constantAfterModule.source model "  " reports = .ok c reports' ∧
    (kindPieces constantAfterModule.source model .declaration model.moduleItems
      ++ declarationPieces constantAfterModule.source model "  ").map (·.node.start) = [63, 23] ∧
    ∃ (types : List ScriptNode) (props : Option PropsDeclaration) (order : List (Piece × Nat))
      (groups : List (List ScriptNode)) (provisions : List ScriptNode),
      c.script = types ++ props.toList.map .props ++ groups.flatten ++ provisions ∧
      order.Perm (kindPieces constantAfterModule.source model .declaration model.moduleItems
        ++ declarationPieces constantAfterModule.source model "  ").zipIdx ∧
      order.Pairwise Precedes ∧
      List.Forall₂ (fun e entries => Written constantAfterModule.source e.1 entries ∧ entries ≠ [])
        order groups := by
  have test : endsIn (analyze constantAfterModule {}) [] (fun model reports =>
      endsIn (toSvelte constantAfterModule.source model "  ") reports (fun _ _ =>
        (kindPieces constantAfterModule.source model .declaration model.moduleItems
          ++ declarationPieces constantAfterModule.source model "  ").map (·.node.start)
            == [63, 23])) = true := by
    decide +kernel
  obtain ⟨model, reports, hmodel, hchecked⟩ := exists_ok_of_endsIn test
  obtain ⟨c, reports', hrun, hstarts⟩ := exists_ok_of_endsIn hchecked
  obtain ⟨types, props, order, groups, provisions, hscript, -, -, hperm, hsorted, hgroups, -⟩ :=
    script_in_source_order hrun
  exact ⟨model, reports, c, reports', hmodel, hrun, eq_of_beq hstarts, types, props, order, groups,
    provisions, hscript, hperm, hsorted, hgroups⟩

end Sample

end Sveltify.Assembly
