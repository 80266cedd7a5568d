import Sveltify.Assembly.ModuleItems
import Sveltify.Proofs.Assembly.Plain

namespace Sveltify.Assembly

open Component Expression Svelte Text

/-!
# What is left in a script

Every binding and statement of a component becomes entries of its script. One that is refused is
left as a placeholder.

* `plain_stateNodes` and so on: building the entries for a binding is a plain step;
* `scriptLeftovers`: what the placeholders of a script keep;
* `Piece`: a binding or statement with the step that builds its entries;
* `Piece.leftovers`: what is kept of it in placeholders;
* `declarationPieces`, `provisionPieces`, `itemPieces`: the pieces of a component;
* `ends_declarationGroups`, `ends_provisionNodes`, `ends_moduleParts`: building their entries is
  never refused, and the placeholders keep what the pieces leave.
-/

variable {src : Source} {model : Model} {indent : String}

/-! ### Entries for bindings -/

theorem plain_convertedText? (n : Option Node) : Plain src (convertedText? src model n) := by
  cases n with
  | none => exact .pure _ _
  | some n => exact .bind (plain_convertedText _ n) fun _ _ => .pure _ _

theorem plain_lazyInitial (initial : Node) : Plain src (lazyInitial src model initial) := by
  refine .need fun function _ => ?_
  cases (function.field? "body").filter (isPlainBody function) with
  | some body => exact plain_convertedText _ body
  | none => exact .bind (plain_convertedText _ initial) fun _ _ => .pure _ _

theorem plain_plainInitial (b : StateBinding) : Plain src (plainInitial src model b) := by
  unfold plainInitial
  cases b.initial with
  | none => exact .pure _ _
  | some initial =>
    dsimp only
    cases b.isLazy with
    | true => exact .bind (plain_lazyInitial initial) fun _ _ => .pure _ _
    | false => exact .bind (plain_convertedText _ initial) fun _ _ => .pure _ _

theorem plain_reducerInitial (b : StateBinding) : Plain src (reducerInitial src model b) := by
  refine .bind (plain_convertedText? b.initial) fun _ _ => ?_
  cases b.reducerInitializer with
  | none => exact .pure _ _
  | some initializer => exact .bind (plain_convertedText _ initializer) fun _ _ => .pure _ _

theorem plain_dispatchFunction (b : StateBinding) (dispatch : String) :
    Plain src (dispatchFunction src model indent b dispatch) := by
  refine .need fun reducer _ => .need fun inner _ => ?_
  exact .bind (plain_convertedText _ reducer) fun _ _ => .pure _ _

/-- State is declared by plain steps. -/
theorem plain_stateNodes (b : StateBinding) : Plain src (stateNodes src model indent b) := by
  unfold stateNodes
  cases b.kind with
  | plain => exact .bind (plain_plainInitial b) fun _ _ => .pure _ _
  | reducer =>
    refine .bind (plain_reducerInitial b) fun _ _ => ?_
    cases nonEmpty? b.dispatch with
    | none => exact .pure _ _
    | some dispatch => exact .bind (plain_dispatchFunction b dispatch) fun _ _ => .pure _ _

/-- So are derived values. -/
theorem plain_derivedNodes (d : DerivedBinding) : Plain src (derivedNodes src model d) :=
  .bind (plain_convertedText _ d.expression) fun _ _ => .pure _ _

/-- So are refs. -/
theorem plain_refNodes (r : RefBinding) : Plain src (refNodes src model r) :=
  .bind (plain_convertedText? r.initial) fun _ _ => .pure _ _

theorem plain_effectExpression (e : Node) : Plain src (effectExpression src model e) := by
  refine .need fun inner _ => .bind (plain_convertedText _ e) fun _ _ => ?_
  split <;> exact .pure _ _

theorem plain_effectDeclaration (e : EffectBinding) :
    Plain src (effectDeclaration src model e) := by
  unfold effectDeclaration
  cases e.isFunctionReference with
  | true => exact .bind (plain_convertedText _ e.callback) fun _ _ => .pure _ _
  | false =>
    refine .need fun callback _ => .bind (.mapM fun s _ => ?_) fun _ _ =>
      .bind (plain_convertedText? e.cleanup) fun _ _ => .pure _ _
    cases e.hasExpressionBody with
    | true => exact plain_effectExpression s
    | false => exact plain_convertedText _ s

/-- So are effects. -/
theorem plain_effectNodes (e : EffectBinding) : Plain src (effectNodes src model e) :=
  .bind (.useImports _) fun _ _ => .bind (plain_effectDeclaration e) fun _ _ => .pure _ _

/-- So are contexts that are read. -/
theorem plain_consumerNodes (u : ContextUse) : Plain src (consumerNodes src model u) := by
  refine .bind (.useImports _) fun _ _ => .bind (plain_convertedText? u.defaultValue) fun _ _ => ?_
  exact .need fun binding _ => .pure _ _

/-- So are contexts that are provided. -/
theorem plain_providerNodes (u : ContextUse) : Plain src (providerNodes src model u) :=
  .bind (plain_convertedText? u.value) fun _ _ => .pure _ _

theorem plain_parameterList (function : Node) : Plain src (parameterList src model function) := by
  unfold parameterList
  cases function.field? "parameters" with
  | some params => exact plain_converted params
  | none =>
    cases function.field? "parameter" with
    | some single => exact .pure _ _
    | none => exact .pure _ _

theorem plain_functionBody (body anchor : Node) :
    Plain src (functionBody src model indent body anchor) := by
  refine .bind (plain_converted body) fun _ _ => ?_
  dsimp only
  split <;> exact .pure _ _

/-- A callback is converted by plain steps. -/
theorem plain_callbackText (l : LocalDeclaration) :
    Plain src (callbackText src model indent l) := by
  refine .need fun name _ => .need fun value _ => .need fun function _ => ?_
  cases function.isFunction with
  | true =>
    refine .bind (plain_parameterList function) fun _ _ => .need fun body _ => ?_
    exact .bind (plain_functionBody body l.node) fun _ _ => .pure _ _
  | false => exact .bind (plain_convertedText _ value) fun _ _ => .pure _ _

/-- So is a local statement, unless it cannot be converted. -/
theorem plain_localNodes (l : LocalDeclaration) (h : l.kind ≠ .unsupported) :
    Plain src (localNodes src model indent l) := by
  unfold localNodes
  cases hkind : l.kind with
  | unsupported => exact absurd hkind h
  | propsId => exact .need fun name _ => .pure _ _
  | callback => exact .bind (plain_callbackText l) fun _ _ => .pure _ _
  | constant | «variable» =>
    dsimp only
    cases l.node.kind == "variable_declarator" with
    | true => exact .bind (plain_convertedText _ l.node) fun _ _ => .pure _ _
    | false => exact .bind (plain_convertedText _ l.node) fun _ _ => .pure _ _
  | function | statement => exact .bind (plain_convertedText _ l.node) fun _ _ => .pure _ _

/-- A statement that is known to have no counterpart is left behind. -/
theorem localNodes_of_unsupported {l : LocalDeclaration} (h : l.kind = .unsupported) :
    localNodes src model indent l = (do
      let reason := (nonEmpty? l.reason).getD "construct cannot be converted"
      return [.placeholder (← leave src l.node reason l.construct (keywordText l.keyword))]) := by
  rw [localNodes, h]

/-- A local statement fails or not whatever went before. -/
theorem steady_localNodes (l : LocalDeclaration) : Steady (localNodes src model indent l) := by
  by_cases h : l.kind = .unsupported
  · rw [localNodes_of_unsupported h]
    exact .bind (steady_leave _ _ _ _) fun _ _ => .pure _ _
  · exact (plain_localNodes l h).steady

/-! ### Placeholders in scripts -/

/-- What an entry of a script keeps of a construct, if it is a placeholder. -/
def entryLeftover? : ScriptNode → Option Leftover
  | .placeholder p => some (leftoverIn p)
  | _ => none

/-- What the placeholders of a script keep. -/
def scriptLeftovers (entries : List ScriptNode) : List Leftover := entries.filterMap entryLeftover?

@[simp] theorem scriptLeftovers_append (as bs : List ScriptNode) :
    scriptLeftovers (as ++ bs) = scriptLeftovers as ++ scriptLeftovers bs :=
  List.filterMap_append

/-- The step yields entries without placeholders. -/
abbrev YieldsNoPlaceholder (x : Assembling (List ScriptNode)) : Prop :=
  Yields (fun entries => scriptLeftovers entries = []) x

/-- State leaves nothing over. -/
theorem yields_stateNodes (b : StateBinding) :
    YieldsNoPlaceholder (stateNodes src model indent b) := by
  unfold stateNodes
  cases b.kind with
  | plain => exact .bind fun _ => .pure rfl
  | reducer =>
    refine .bind fun _ => ?_
    cases nonEmpty? b.dispatch with
    | none => exact .pure rfl
    | some dispatch =>
      have function : Yields (fun entry => scriptLeftovers [entry] = [])
          (dispatchFunction src model indent b dispatch) :=
        .bind fun _ => .bind fun _ => .bind fun _ => .pure rfl
      exact function.andThen fun entry h => .pure h

/-- What a statement keeps of itself that is known to have no counterpart. -/
def localLeftovers (src : Source) (l : LocalDeclaration) : List Leftover :=
  match l.kind with
  | .unsupported =>
    let reason := (nonEmpty? l.reason).getD "construct cannot be converted"
    [leftoverOf src l.node (keywordText l.keyword) reason]
  | _ => []

/-- Only statements that cannot be converted are left over. -/
theorem yields_localNodes (l : LocalDeclaration) :
    Yields (fun entries => scriptLeftovers entries = localLeftovers src l)
      (localNodes src model indent l) := by
  unfold localNodes localLeftovers
  cases l.kind with
  | unsupported =>
    intro s entries t hrun
    cases hrun
    rfl
  | propsId => exact .bind fun _ => .pure rfl
  | callback => exact .bind fun _ => .pure rfl
  | constant | «variable» =>
    dsimp only
    split
    · exact .bind fun _ => .pure rfl
    · exact .bind fun _ => .pure rfl
  | function | statement => exact .bind fun _ => .pure rfl

/-! ### Pieces of a script -/

/-- A binding or statement with the step that builds its entries. -/
structure Piece where
  node : Node
  /-- The text that stands before the node in a placeholder. -/
  before : String := ""
  build : Assembling (List ScriptNode)
  /-- What the entries keep in placeholders if the step is not refused. -/
  own : List Leftover := []
  ends : Ends (refusalOf build) (isComplete build)
    (fun entries => scriptLeftovers entries = own) build

/-- What is kept of a piece in placeholders. -/
def Piece.leftovers (src : Source) (p : Piece) : List Leftover :=
  leftoversOf src p.node p.before (refusalOf p.build) p.own

/-- Does the tree have all the parts that pieces need? -/
def piecesComplete (pieces : List Piece) : Bool := pieces.all fun p => isComplete p.build

@[simp] theorem piecesComplete_append (ps qs : List Piece) :
    piecesComplete (ps ++ qs) = (piecesComplete ps && piecesComplete qs) :=
  List.all_append

/-- What the placeholders of a group keep. -/
def groupLeftovers (g : Group) : List Leftover := scriptLeftovers g.nodes

/-- A group leaves over what its piece leaves over. -/
theorem ends_groupFor (p : Piece) :
    Ends none (isComplete p.build) (fun g => groupLeftovers g = p.leftovers src)
      (groupFor src p.node p.before p.build) := by
  refine Ends.map (Q := fun entries => scriptLeftovers entries = p.leftovers src) ?_ fun _ h => h
  exact ends_orElse_leave (R := fun ws entries => scriptLeftovers entries = ws) p.ends fun _ => rfl

/-- The groups of pieces keep what the pieces leave. -/
theorem ends_groups {γ : Type} (piece : γ → Piece) (l : List γ) :
    Ends none (piecesComplete (l.map piece))
      (fun groups => groups.flatMap groupLeftovers =
        (l.map piece).flatMap (Piece.leftovers src))
      (l.mapM fun c => groupFor src (piece c).node (piece c).before (piece c).build) := by
  rw [piecesComplete, List.all_map]
  refine (Ends.mapM_none fun c _ => ends_groupFor (piece c)).mono (fun h => h) fun groups h => ?_
  rw [flatMap_eq_of_forall₂ h, List.flatMap_map]

section Pieces

variable (src : Source) (model : Model) (indent : String)

/-- A cell of state. -/
def statePiece (b : StateBinding) : Piece where
  node := b.node
  before := "const "
  build := stateNodes src model indent b
  ends := (plain_stateNodes b).steady.ends (yields_stateNodes b)

/-- A derived value. -/
def derivedPiece (d : DerivedBinding) : Piece where
  node := d.node
  before := "const "
  build := derivedNodes src model d
  ends := (plain_derivedNodes d).steady.ends (.bind fun _ => .pure rfl)

/-- An effect. -/
def effectPiece (e : EffectBinding) : Piece where
  node := e.node
  build := effectNodes src model e
  ends := (plain_effectNodes e).steady.ends (.bind fun _ => .bind fun _ => .pure rfl)

/-- A consumed context. -/
def consumerPiece (u : ContextUse) : Piece where
  node := u.node
  before := "const "
  build := consumerNodes src model u
  ends := (plain_consumerNodes u).steady.ends
    (.bind fun _ => .bind fun _ => .bind fun _ => .pure rfl)

/-- A ref. -/
def refPiece (r : RefBinding) : Piece where
  node := r.node
  before := "const "
  build := refNodes src model r
  ends := (plain_refNodes r).steady.ends (.bind fun _ => .pure rfl)

/-- Any other statement of the component. -/
def localPiece (l : LocalDeclaration) : Piece where
  node := l.node
  before := keywordText l.keyword
  build := localNodes src model indent l
  own := localLeftovers src l
  ends := (steady_localNodes l).ends (yields_localNodes l)

/-- A provided context. -/
def providerPiece (u : ContextUse) : Piece where
  node := u.node
  build := providerNodes src model u
  ends := (plain_providerNodes u).steady.ends (.bind fun _ => .pure rfl)

/-- A statement around the component. -/
def itemPiece (item : ModuleItem) : Piece where
  node := item.node
  build := do return [.raw (← convertedText src model true item.node)]
  ends := by
    have plain : Plain src (do
        return [ScriptNode.raw (← convertedText src model true item.node)]) :=
      .bind (plain_convertedText _ item.node) fun _ _ => .pure _ _
    exact plain.steady.ends (.bind fun _ => .pure rfl)

/-- The declarations of a component, kind after kind. -/
def declarationPieces : List Piece :=
  model.state.values.map (statePiece src model indent)
    ++ model.derived.values.map (derivedPiece src model)
    ++ model.effects.map (effectPiece src model)
    ++ (model.contexts.filter (·.direction == .consume)).map (consumerPiece src model)
    ++ (model.refs.values.filter (!·.isForwarded)).map (refPiece src model)
    ++ model.locals.map (localPiece src model indent)

/-- The contexts that a component provides. -/
def provisionPieces : List Piece :=
  (model.contexts.filter (·.direction == .provide)).map (providerPiece src model)

/-- The statements around a component, but for imports. -/
def itemPieces (items : List ModuleItem) : List Piece :=
  (items.filter (·.kind != .importing)).map (itemPiece src model)

end Pieces

/-- Building the declarations is never refused, and keeps what they leave. -/
theorem ends_declarationGroups :
    Ends none (piecesComplete (declarationPieces src model indent))
      (fun groups => groups.flatMap groupLeftovers =
        (declarationPieces src model indent).flatMap (Piece.leftovers src))
      (declarationGroups src model indent) := by
  simp only [declarationPieces, piecesComplete_append, Bool.and_assoc, List.flatMap_append]
  refine (ends_groups (statePiece src model indent) _).andThen fun state hstate => ?_
  refine (ends_groups (derivedPiece src model) _).andThen fun derived hderived => ?_
  refine (ends_groups (effectPiece src model) _).andThen fun effects heffects => ?_
  refine (ends_groups (consumerPiece src model) _).andThen fun consumers hconsumers => ?_
  refine (ends_groups (refPiece src model) _).andThen fun refs hrefs => ?_
  refine (ends_groups (localPiece src model indent) _).map fun locals hlocals => ?_
  simp only [List.flatMap_append, hstate, hderived, heffects, hconsumers, hrefs, hlocals]

/-- What groups leave over, group by group. -/
theorem scriptLeftovers_flatMap (groups : List Group) :
    scriptLeftovers (groups.flatMap (·.nodes)) = groups.flatMap groupLeftovers := by
  induction groups with
  | nil => rfl
  | cons g groups ih =>
    rw [List.flatMap_cons, List.flatMap_cons, scriptLeftovers_append, ih]
    rfl

/-- Building the provisions is never refused, and keeps what they leave. -/
theorem ends_provisionNodes :
    Ends none (piecesComplete (provisionPieces src model))
      (fun entries => scriptLeftovers entries =
        (provisionPieces src model).flatMap (Piece.leftovers src))
      (provisionNodes src model) := by
  have each (u : ContextUse) :
      Ends none (isComplete (providerPiece src model u).build)
        (fun g => groupLeftovers g = (providerPiece src model u).leftovers src) (do
          useImports ["setContext"]
          groupFor src u.node "" (providerNodes src model u)) :=
    (Ends.modify _).thereafter fun _ _ => ends_groupFor (providerPiece src model u)
  rw [provisionPieces, piecesComplete, List.all_map]
  refine Ends.map (Ends.mapM_none fun u _ => each u) fun groups h => ?_
  rw [scriptLeftovers_flatMap, flatMap_eq_of_forall₂ h, List.flatMap_map]

/-! ### Statements around a component -/

/-- Is the module that a statement imports named by some text? -/
def namesModule (src : Source) (statement : Node) : Bool :=
  (statement.field? "source").all fun path => !(src.text path).toList.isEmpty

/-- A path that names a module is not empty. -/
theorem isSome_head_of_namesModule {statement path name : Node} {tags : List String}
    (h : componentImport? src tags statement = some (path, name))
    (hnames : namesModule src statement = true) : (src.text path).toList.head?.isSome = true := by
  unfold componentImport? at h
  split at h
  · rename_i path' name' hpath _
    split at h
    · obtain ⟨rfl, rfl⟩ : path' = path ∧ name' = name := by simpa using h
      simpa [namesModule, hpath] using hnames
    · cases h
  · cases h

/-- An import statement is never refused. -/
theorem ends_importText? (contextKeys : List String) (item : ModuleItem) :
    Ends none (namesModule src item.node) (fun _ => True) (importText? src contextKeys item) := by
  have always {α : Type} {x : Assembling α} (h : Ends none true (fun _ => True) x) :
      Ends none (namesModule src item.node) (fun _ => True) x :=
    h.mono (fun _ => rfl) fun _ h => h
  unfold importText?
  dsimp only
  split
  · exact always ((Ends.modify _).thereafter fun _ _ => .pure trivial)
  · refine Ends.get.thereafter fun p _ => ?_
    split
    · exact always (.pure trivial)
    · rename_i path name himport
      refine ((Ends.need _).andThen (d := true) fun quote _ => ?_).mono (fun hnames => ?_)
        fun _ h => h
      · split
        · exact .pure trivial
        · exact (Ends.modify _).thereafter fun _ _ => .pure trivial
      · rw [isSome_head_of_namesModule himport hnames, Bool.true_and]

/-- Does the tree have all the parts that a statement around a component needs? -/
def itemComplete (src : Source) (model : Model) (item : ModuleItem) : Bool :=
  if item.kind = .importing then namesModule src item.node
  else isComplete (itemPiece src model item).build

/-- What the placeholders among the statements around a component keep. -/
def partsLeftovers (parts : ModuleParts) : List Leftover :=
  scriptLeftovers parts.types ++ scriptLeftovers parts.moduleScript
    ++ parts.declarations.flatMap groupLeftovers

theorem itemPieces_append (as bs : List ModuleItem) :
    itemPieces src model (as ++ bs) = itemPieces src model as ++ itemPieces src model bs := by
  rw [itemPieces, List.filter_append, List.map_append]
  rfl

/-- Adding a statement is never refused, and keeps what the statement leaves. -/
theorem ends_addItem (contextKeys : List String) (parts : ModuleParts) (item : ModuleItem) :
    Ends none (itemComplete src model item)
      (fun parts' => (partsLeftovers parts').Perm
        (partsLeftovers parts ++ (itemPieces src model [item]).flatMap (Piece.leftovers src)))
      (addItem src model contextKeys parts item) := by
  have single (h : item.kind ≠ .importing) :
      (itemPieces src model [item]).flatMap (Piece.leftovers src) =
        (itemPiece src model item).leftovers src := by
    simp [itemPieces, h]
  unfold addItem itemComplete
  cases hkind : item.kind with
  | importing =>
    refine (ends_importText? contextKeys item).map fun text _ => ?_
    simp [itemPieces, hkind, partsLeftovers]
  | typing | exported | declaration =>
    refine (ends_groupFor (itemPiece src model item)).map fun g hg => ?_
    -- The entries are added to one of three lists; counting is blind to which.
    rw [single (by simp [hkind]), ← hg, List.perm_iff_count]
    intro leftover
    simp only [partsLeftovers, scriptLeftovers_append, groupLeftovers, List.flatMap_append,
      List.flatMap_singleton, List.count_append]
    omega

/-- Converting the statements around a component is never refused, and keeps what they leave. -/
theorem ends_moduleParts :
    Ends none (model.moduleItems.all (itemComplete src model))
      (fun parts => (partsLeftovers parts).Perm
        ((itemPieces src model model.moduleItems).flatMap (Piece.leftovers src)))
      (moduleParts src model) := by
  -- The invariant relates what has been collected to the statements so far.
  let kept (done : List ModuleItem) (parts : ModuleParts) : Prop :=
    (partsLeftovers parts).Perm ((itemPieces src model done).flatMap (Piece.leftovers src))
  have start : kept [] {} := .refl []
  refine Ends.foldlM (I := kept) (fun done parts item hparts => ?_) model.moduleItems start
  refine (ends_addItem _ parts item).mono (fun h => h) fun parts' h => h.trans ?_
  rw [itemPieces_append, List.flatMap_append]
  exact hparts.append_right _

end Sveltify.Assembly
