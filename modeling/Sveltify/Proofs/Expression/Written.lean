import Sveltify.Proofs.Expression.Copy

namespace Sveltify.Expression

open Component

/-!
# What a conversion writes

A conversion goes through a tree with a memory, which it looks into and changes whenever it meets a
setter as a value. What it writes, how it fails and which setters it replaces does not depend on the
memory: it can be told by rules that do not mention it.

* `Adds`: from any memory, a step meets these uses of setters, and ends in this way;
* `Fate`: what becomes of a single node that does not call a setter;
* `Writes`: what becomes of a part of a tree, by one rule for each case;
* `exists_writes`: there is a rule for every part;
* `convert_of_writes`: a conversion ends as the rules say;
* `Forgetful`: a conversion answers in the same way from any memory.
-/

variable {src : Source} {model : Model} {α β : Type}

/-! ### Steps that meet uses of setters -/

/-- Whatever is remembered, the step meets these uses of setters, one after another, and ends with
this result. -/
def Adds (x : Conversion α) (uses : List SetterUse) (r : Except Failure α) : Prop :=
  ∀ memory, x memory =
    match r with
    | .ok a => .ok a (uses.foldl Memory.remark memory)
    | .error e => .error e (uses.foldl Memory.remark memory)

namespace Adds

theorem pure (a : α) : Adds (Pure.pure a) [] (.ok a) := fun _ => rfl

theorem throw (e : Failure) : Adds (throw e : Conversion α) [] (.error e) := fun _ => rfl

/-- The uses met in two steps are met one after the other. -/
theorem bind {x : Conversion α} {f : α → Conversion β} {uses uses' : List SetterUse} {a : α}
    {r : Except Failure β} (hx : Adds x uses (.ok a)) (hf : Adds (f a) uses' r) :
    Adds (x >>= f) (uses ++ uses') r := by
  intro memory
  show EStateM.bind x f memory = _
  unfold EStateM.bind
  rw [hx memory]
  dsimp only
  rw [hf (uses.foldl Memory.remark memory), List.foldl_append]

theorem bind_error {x : Conversion α} {uses : List SetterUse} {e : Failure}
    (hx : Adds x uses (.error e)) (f : α → Conversion β) : Adds (x >>= f) uses (.error e) := by
  intro memory
  show EStateM.bind x f memory = _
  unfold EStateM.bind
  rw [hx memory]

/-- A step whose result is handed on. -/
theorem bind_pure {x : Conversion α} {f : α → Conversion β} {uses : List SetterUse} {a : α} {b : β}
    (hx : Adds x uses (.ok a)) (hf : f a = Pure.pure b) : Adds (x >>= f) uses (.ok b) := by
  have := hx.bind (hf ▸ pure b : Adds (f a) [] (.ok b))
  rwa [List.append_nil] at this

/-- A step and a function of its result. -/
theorem map {x : Conversion α} {uses : List SetterUse} {r : Except Failure α} (hx : Adds x uses r)
    {f : α → Conversion β} {g : α → β} (hf : ∀ a, f a = Pure.pure (g a)) :
    Adds (x >>= f) uses (r.map g) := by
  cases r with
  | ok a => exact hx.bind_pure (hf a)
  | error e => exact hx.bind_error _

end Adds

/-! ### Single nodes -/

/-- What becomes of a node that does not call a setter: the uses of setters in it, and a text, a
refusal, or nothing, so that it is copied. -/
inductive Fate (src : Source) (model : Model) (subs : Substitution) (n : Node) :
    List SetterUse → Except Failure (Option String) → Prop
  /-- A setter used as a value. -/
  | setter {cell : StateBinding} (hname : isName n = true)
      (hcell : referencedCell? model n.span = some cell) :
      Fate src model subs n [⟨n, cell⟩] (.ok (some (entryFor src n (assigner cell.name))))
  /-- The current value of a ref. -/
  | ref {name : String} (hkind : n.kind = "member_expression")
      (href : currentRef? src model n = some name) : Fate src model subs n [] (.ok (some name))
  /-- A call of a hook of React. -/
  | hook {hook : HookCall} (hkind : n.kind = "call_expression")
      (hhook : Hook.ofCall? src n = some hook) (hreact : hook.kind ≠ .custom) :
      Fate src model subs n [] (.error (.refused (misplacedHook src hook)))
  | markup (hmarkup : n.isJsx = true) :
      Fate src model subs n [] (.error (.refused (strayMarkup src n)))
  /-- Anything else, which is copied unless it has a substitute. -/
  | other (h : Unreplaced src model n) : Fate src model subs n [] (.ok (substitute? src subs n))

/-- The fate of a node says what it adds. -/
theorem Fate.adds {subs : Substitution} {n : Node} {uses : List SetterUse}
    {r : Except Failure (Option String)} (h : Fate src model subs n uses r) :
    Adds (replaceOther src model subs n) uses r := by
  unfold replaceOther
  -- The kinds are tested in turn, so each fate rules out those that come before its own.
  cases h with
  | setter hname hcell =>
    have hcall : (n.kind == "call_expression") = false := by
      rcases Bool.or_eq_true_iff.1 hname with h | h <;> simp [eq_of_beq h]
    rw [hcall, if_neg Bool.false_ne_true, if_pos hname]
    unfold replaceName
    rw [hcell]
    exact fun _ => rfl
  | ref hkind href =>
    rw [if_neg (by simp [hkind]), if_neg (by simp [isName, hkind]), if_pos (by simp [hkind]), href]
    exact .pure _
  | hook hkind hhook hreact =>
    rw [if_pos (by simp [hkind]), hhook]
    dsimp only
    rw [if_neg (by simpa using hreact)]
    exact .throw _
  | markup hmarkup =>
    have hkind : n.kind ≠ "call_expression" ∧ isName n = false ∧ n.kind ≠ "member_expression" := by
      simp only [Node.isJsx, Node.jsxKinds, List.contains_iff_mem, List.mem_cons, List.not_mem_nil,
        or_false] at hmarkup
      rcases hmarkup with h | h | h <;> simp [h, isName]
    rw [if_neg (by simpa using hkind.1), if_neg (by simp [hkind.2.1]),
      if_neg (by simpa using hkind.2.2), if_pos hmarkup]
    exact .throw _
  | other h =>
    have := replaceOther_of_unreplaced h subs
    unfold replaceOther at this
    rw [this]
    exact .pure _

/-- A node that stays is not remarked. -/
theorem Fate.uses_eq_nil {subs : Substitution} {n : Node} {uses : List SetterUse}
    (h : Fate src model subs n uses (.ok none)) : uses = [] := by
  generalize hr : Except.ok none = r at h
  cases h with
  | setter => cases hr
  | _ => rfl

/-- Every node has a fate. -/
theorem exists_fate (src : Source) (model : Model) (subs : Substitution) (n : Node) :
    ∃ uses r, Fate src model subs n uses r := by
  -- The fates are tried in turn; what has none of the first four is left.
  by_cases hmarkup : n.isJsx = true
  · exact ⟨_, _, .markup hmarkup⟩
  by_cases hsetter : isName n = true ∧ (referencedCell? model n.span).isSome
  · obtain ⟨cell, hcell⟩ := Option.isSome_iff_exists.1 hsetter.2
    exact ⟨_, _, .setter hsetter.1 hcell⟩
  by_cases href : n.kind = "member_expression" ∧ (currentRef? src model n).isSome
  · obtain ⟨name, hname⟩ := Option.isSome_iff_exists.1 href.2
    exact ⟨_, _, .ref href.1 hname⟩
  by_cases hhook : n.kind = "call_expression" ∧
      ∃ hook, Hook.ofCall? src n = some hook ∧ hook.kind ≠ .custom
  · obtain ⟨hkind, hook, hhook, hreact⟩ := hhook
    exact ⟨_, _, .hook hkind hhook hreact⟩
  refine ⟨_, _, .other ⟨by simpa using hmarkup, fun hkind hook h => ?_, fun hkind => ?_,
    fun hname => ?_⟩⟩
  · by_contra hreact
    exact hhook ⟨hkind, hook, h, hreact⟩
  · simpa [hkind] using href
  · simpa [hname] using hsetter

/-! ### Rules -/

/-- Does a call stand as a statement, given its parent? -/
def standsAlone (isStatement : Bool) : Option Node → Bool
  | none => isStatement
  | some parent => parent.kind == "expression_statement"

/-- The new value of a cell, given the text of the node that it comes from. -/
def NewValue.text (v : NewValue) (cell text : String) : String :=
  if v.isApplied then s!"({text})({cell})" else text

/-- What is to be written: a node below its parent, or the rest of a node from an offset on, with
the children that are still to come. -/
inductive Part where
  | node (parent : Option Node) (n : Node)
  | rest (n : Node) (cursor : Nat) (children : List Node)

/-- A conversion writes a part of a tree with this result, and replaces these setters used as values
on the way. -/
inductive Writes (src : Source) (model : Model) :
    Substitution → Bool → Part → List SetterUse → Except Failure String → Prop
  /-- A call of a setter without an argument. -/
  | clears {subs : Substitution} {isStatement : Bool} {parent : Option Node} {n : Node}
      {cell : StateBinding} (hcall : setterCall? model n = some cell)
      (hargument : (Hook.argumentsOf n).head? = none) :
      Writes src model subs isStatement (.node parent n) []
        (.ok (assignment cell.name "undefined" (standsAlone isStatement parent)))
  /-- A call of a setter whose argument lacks a part. -/
  | lacks {subs : Substitution} {isStatement : Bool} {parent : Option Node} {n argument : Node}
      {cell : StateBinding} (hcall : setterCall? model n = some cell)
      (hargument : (Hook.argumentsOf n).head? = some argument)
      (hvalue : newValue? src cell.name subs argument = none) :
      Writes src model subs isStatement (.node parent n) [] (.error .incomplete)
  /-- A call of a setter. -/
  | assigns {subs : Substitution} {isStatement : Bool} {parent : Option Node} {n argument : Node}
      {cell : StateBinding} {v : NewValue} {uses : List SetterUse} {r : Except Failure String}
      (hcall : setterCall? model n = some cell)
      (hargument : (Hook.argumentsOf n).head? = some argument)
      (hvalue : newValue? src cell.name subs argument = some v)
      (h : Writes src model v.substitution false (.node none v.node) uses r) :
      Writes src model subs isStatement (.node parent n) uses
        (r.map fun text =>
          assignment cell.name (v.text cell.name text) (standsAlone isStatement parent))
  /-- Another node that is written in a different way. -/
  | replaced {subs : Substitution} {isStatement : Bool} {parent : Option Node} {n : Node}
      {uses : List SetterUse} {text : String} (hcall : setterCall? model n = none)
      (h : Fate src model subs n uses (.ok (some text))) :
      Writes src model subs isStatement (.node parent n) uses (.ok text)
  | refused {subs : Substitution} {isStatement : Bool} {parent : Option Node} {n : Node}
      {uses : List SetterUse} {e : Failure} (hcall : setterCall? model n = none)
      (h : Fate src model subs n uses (.error e)) :
      Writes src model subs isStatement (.node parent n) uses (.error e)
  /-- A node without children that is copied. -/
  | leaf {subs : Substitution} {isStatement : Bool} {parent : Option Node} {n : Node}
      (hcall : setterCall? model n = none) (h : Fate src model subs n [] (.ok none))
      (hleaf : n.children = []) :
      Writes src model subs isStatement (.node parent n) [] (.ok (src.text n))
  /-- A node with children that is copied but for what becomes of them. -/
  | inner {subs : Substitution} {isStatement : Bool} {parent : Option Node} {n : Node}
      {uses : List SetterUse} {r : Except Failure String} (hcall : setterCall? model n = none)
      (h : Fate src model subs n [] (.ok none)) (hinner : n.children ≠ [])
      (hrest : Writes src model subs isStatement (.rest n n.start n.children) uses r) :
      Writes src model subs isStatement (.node parent n) uses r
  /-- The text behind the last child. -/
  | done {subs : Substitution} {isStatement : Bool} {n : Node} {cursor : Nat} :
      Writes src model subs isStatement (.rest n cursor []) [] (.ok (src.slice cursor n.stop))
  /-- A child that fails. -/
  | stops {subs : Substitution} {isStatement : Bool} {n c : Node} {cursor : Nat} {cs : List Node}
      {uses : List SetterUse} {e : Failure}
      (h : Writes src model subs isStatement (.node (some n) c) uses (.error e)) :
      Writes src model subs isStatement (.rest n cursor (c :: cs)) uses (.error e)
  /-- A child with the text in front of it, and what follows it. -/
  | next {subs : Substitution} {isStatement : Bool} {n c : Node} {cursor : Nat} {cs : List Node}
      {uses uses' : List SetterUse} {text : String} {r : Except Failure String}
      (h : Writes src model subs isStatement (.node (some n) c) uses (.ok text))
      (hrest : Writes src model subs isStatement (.rest n c.stop cs) uses' r) :
      Writes src model subs isStatement (.rest n cursor (c :: cs)) (uses ++ uses')
        (r.map fun tail => src.slice cursor c.start ++ text ++ tail)

mutual

/-- There is a rule for every node. -/
theorem exists_writes (src : Source) (model : Model) (subs : Substitution) (isStatement : Bool)
    (parent : Option Node) (n : Node) :
    ∃ uses r, Writes src model subs isStatement (.node parent n) uses r := by
  cases hcall : setterCall? model n with
  | some cell =>
    cases hargument : (Hook.argumentsOf n).head? with
    | none => exact ⟨_, _, .clears hcall hargument⟩
    | some argument =>
      cases hvalue : newValue? src cell.name subs argument with
      | none => exact ⟨_, _, .lacks hcall hargument hvalue⟩
      | some v =>
        -- The new value may lie deep inside the argument, so the recursion is on the size.
        have := size_newValue src hvalue
        have := size_argumentsOf hargument
        obtain ⟨uses, r, h⟩ := exists_writes src model v.substitution false none v.node
        exact ⟨_, _, .assigns hcall hargument hvalue h⟩
  | none =>
    obtain ⟨uses, r, h⟩ := exists_fate src model subs n
    cases r with
    | error e => exact ⟨_, _, .refused hcall h⟩
    | ok replacement =>
      cases replacement with
      | some text => exact ⟨_, _, .replaced hcall h⟩
      | none =>
        obtain rfl : uses = [] := h.uses_eq_nil
        by_cases hleaf : n.children = []
        · exact ⟨_, _, .leaf hcall h hleaf⟩
        · obtain ⟨uses, r, hrest⟩ :=
            exists_writes_rest src model subs isStatement n n.start n.children
          exact ⟨_, _, .inner hcall h hleaf hrest⟩
termination_by 2 * n.size
decreasing_by
  · rw [Node.size_eq n]
    omega
  · omega

/-- The rest of a node is written. -/
theorem exists_writes_rest (src : Source) (model : Model) (subs : Substitution) (isStatement : Bool)
    (n : Node) (cursor : Nat) (cs : List Node) :
    ∃ uses r, Writes src model subs isStatement (.rest n cursor cs) uses r := by
  match cs with
  | [] => exact ⟨_, _, .done⟩
  | c :: cs =>
    obtain ⟨uses, r, h⟩ := exists_writes src model subs isStatement (some n) c
    cases r with
    | error e => exact ⟨_, _, .stops h⟩
    | ok text =>
      obtain ⟨uses', r, hrest⟩ := exists_writes_rest src model subs isStatement n c.stop cs
      exact ⟨_, _, .next h hrest⟩
termination_by 2 * Node.sizeAll cs + 1
decreasing_by
  all_goals
    have := c.size_pos
    simp only [Node.sizeAll_cons]
    omega

end

/-- What is replaced as a setter is a reference to it. -/
theorem Fate.referenced {subs : Substitution} {n : Node} {uses : List SetterUse}
    {r : Except Failure (Option String)} (h : Fate src model subs n uses r) {u : SetterUse}
    (hu : u ∈ uses) : referencedCell? model u.node.span = some u.cell := by
  cases h with
  | setter _ hcell =>
    obtain rfl := List.mem_singleton.1 hu
    exact hcell
  | _ => cases hu

/-- Only references to setters are remarked. -/
theorem Writes.referenced {subs : Substitution} {isStatement : Bool} {part : Part}
    {uses : List SetterUse} {r : Except Failure String}
    (h : Writes src model subs isStatement part uses r) {u : SetterUse} (hu : u ∈ uses) :
    referencedCell? model u.node.span = some u.cell := by
  induction h with
  | clears => cases hu
  | lacks => cases hu
  | assigns _ _ _ _ ih => exact ih hu
  | replaced _ h => exact h.referenced hu
  | refused _ h => exact h.referenced hu
  | leaf => cases hu
  | inner _ _ _ _ ih => exact ih hu
  | done => cases hu
  | stops _ ih => exact ih hu
  | next _ _ ih ih' =>
    rcases List.mem_append.1 hu with hu | hu
    · exact ih hu
    · exact ih' hu

/-! ### Conversions follow the rules -/

variable (src model) in
/-- The replacement of a node in a conversion, given its parent. -/
def replaceAt (subs : Substitution) (isStatement : Bool) (parent : Option Node) (n : Node) :
    Conversion (Option String) :=
  match setterCall? model n with
  | none => replaceOther src model subs n
  | some cell =>
    match (Hook.argumentsOf n).head? with
    | none => return some (assignment cell.name "undefined" (standsAlone isStatement parent))
    | some argument =>
      match newValue? src cell.name subs argument with
      | none => throw .incomplete
      | some v => do
        let text ← convert src model v.substitution false v.node
        return some (assignment cell.name (v.text cell.name text) (standsAlone isStatement parent))

/-- A conversion is a splice. -/
theorem convert_eq (subs : Substitution) (isStatement : Bool) (n : Node) :
    convert src model subs isStatement n =
      spliceNode src n.size (fun parent c _ => replaceAt src model subs isStatement parent c) none n
        (Nat.le_refl _) := by
  rw [convert]
  congr 1
  -- The matches of `convert` carry equations that its termination needs; here they are dropped.
  funext parent c hc
  unfold replaceAt
  cases setterCall? model c with
  | none => rfl
  | some cell =>
    dsimp only
    generalize (Hook.argumentsOf c).head? = first
    cases first with
    | none => cases parent <;> rfl
    | some argument =>
      dsimp only
      generalize newValue? src cell.name subs argument = value
      cases value with
      | none => rfl
      | some v => cases parent <;> rfl

/-- What a part of a tree comes to when it is spliced in the course of a conversion. -/
def Splices (src : Source) (model : Model) (subs : Substitution) (isStatement : Bool)
    (uses : List SetterUse) (r : Except Failure String) : Part → Prop
  | .node parent n => ∀ bound (h : n.size ≤ bound),
    Adds (spliceNode src bound (fun p c _ => replaceAt src model subs isStatement p c) parent n h)
      uses r
  | .rest n cursor cs => ∀ bound (h : Node.sizeAll cs ≤ bound),
    Adds (spliceChildren src bound (fun p c _ => replaceAt src model subs isStatement p c) n cursor
      cs h) uses r

/-- A node that is replaced as a whole. -/
theorem splices_of_replaceAt {subs : Substitution} {isStatement : Bool} {parent : Option Node}
    {n : Node} {uses : List SetterUse} {r : Except Failure String}
    (h : Adds (replaceAt src model subs isStatement parent n) uses (r.map some)) :
    Splices src model subs isStatement uses r (.node parent n) := by
  intro bound hbound
  rw [spliceNode]
  cases r with
  | error e => exact h.bind_error _
  | ok text => exact h.bind_pure rfl

/-- **Rules.** A part of a tree is spliced as the rules say. -/
theorem Writes.splices {subs : Substitution} {isStatement : Bool} {part : Part}
    {uses : List SetterUse} {r : Except Failure String}
    (h : Writes src model subs isStatement part uses r) :
    Splices src model subs isStatement uses r part := by
  induction h with
  | clears hcall hargument =>
    refine splices_of_replaceAt ?_
    simp only [replaceAt, hcall, hargument]
    exact .pure _
  | lacks hcall hargument hvalue =>
    refine splices_of_replaceAt ?_
    simp only [replaceAt, hcall, hargument, hvalue]
    exact .throw _
  | @assigns _ _ _ _ _ _ v _ r hcall hargument hvalue _ ih =>
    refine splices_of_replaceAt ?_
    simp only [replaceAt, hcall, hargument, hvalue]
    -- The new value is converted by itself, so its own size is bound enough.
    rw [convert_eq]
    have value := ih v.node.size (Nat.le_refl _)
    cases r with
    | ok text => exact value.bind_pure rfl
    | error e => exact value.bind_error _
  | replaced hcall h =>
    refine splices_of_replaceAt ?_
    simp only [replaceAt, hcall]
    exact h.adds
  | refused hcall h =>
    refine splices_of_replaceAt ?_
    simp only [replaceAt, hcall]
    exact h.adds
  | leaf hcall h hleaf =>
    intro bound hbound
    rw [spliceNode, replaceAt, hcall]
    refine h.adds.bind_pure ?_
    simp [hleaf]
  | inner hcall h hinner _ ih =>
    intro bound hbound
    rw [spliceNode, replaceAt, hcall]
    -- The node itself adds no use; those of its children follow.
    refine h.adds.bind ?_
    dsimp only
    rw [if_neg (by simpa using hinner)]
    exact ih bound _
  | done =>
    intro bound hbound
    rw [spliceChildren]
    exact .pure _
  | stops _ ih =>
    intro bound hbound
    rw [spliceChildren]
    exact (ih bound _).bind_error _
  | next _ _ ih ihrest =>
    intro bound hbound
    rw [spliceChildren]
    exact (ih bound _).bind ((ihrest bound _).map fun _ => rfl)

/-- It adds what it writes. -/
theorem convert_of_writes {subs : Substitution} {isStatement : Bool} {n : Node}
    {uses : List SetterUse} {r : Except Failure String}
    (h : Writes src model subs isStatement (.node none n) uses r) :
    Adds (convert src model subs isStatement n) uses r := by
  rw [convert_eq]
  exact h.splices n.size (Nat.le_refl _)

/-- So does one by lines. -/
theorem convertLines_of_writes {isStatement : Bool} {n : Node} {uses : List SetterUse}
    {r : Except Failure String} (h : Writes src model [] isStatement (.node none n) uses r) :
    Adds (convertLines src model isStatement n) uses (r.map fun text => outdent src text n) :=
  (convert_of_writes h).map fun _ => rfl

/-! ### Memory -/

/-- What the conversion answers, and which uses of setters it meets, does not depend on what is
remembered. -/
def Forgetful (c : Conversion α) : Prop := ∃ uses r, Adds c uses r

/-- A conversion answers in the same way from any memory. -/
theorem forgetful_convert (src : Source) (model : Model) (subs : Substitution) (isStatement : Bool)
    (n : Node) : Forgetful (convert src model subs isStatement n) := by
  obtain ⟨uses, r, h⟩ := exists_writes src model subs isStatement none n
  exact ⟨uses, r, convert_of_writes h⟩

/-- So does one that moves the text to the left margin. -/
theorem forgetful_convertLines (src : Source) (model : Model) (isStatement : Bool) (n : Node) :
    Forgetful (convertLines src model isStatement n) := by
  obtain ⟨uses, r, h⟩ := exists_writes src model [] isStatement none n
  exact ⟨uses, _, convertLines_of_writes h⟩

end Sveltify.Expression
