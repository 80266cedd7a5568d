import Sveltify.Expression.Splice
import Sveltify.Proofs.Syntax.Tree
import Sveltify.Proofs.Text

namespace Sveltify

open Text

/-!
# Splicing is exact

Splicing goes down a tree, and copies the gaps between the children of every node that it goes
through. All these gaps together are what stands between the replaced nodes, as long as the spans of
the nodes fit together: nothing of the source is lost, and nothing is copied twice.

* `WellPlaced`: the spans of a tree fit together;
* `topmost`: the replaced nodes that stand below no other, in pre-order;
* `weave`: replacements with the text of the source between them;
* `spliceNode_exact`: splicing weaves the topmost replacements into the source;
* `splice_exact`: the same of splicing without effects, in the octets of a text.
-/

/-! ### Spans that fit together -/

namespace Node

/-- The spans of a tree fit together: children follow one another in the span of their parent, and
no span starts or stops inside a character. -/
structure WellPlaced (src : Source) (n : Node) : Prop where
  nested : n.isNested = true
  start : ∀ c ∈ n.preorder, src.IsBoundary c.start
  stop : ∀ c ∈ n.preorder, src.IsBoundary c.stop

instance (src : Source) (n : Node) : Decidable (WellPlaced src n) :=
  decidable_of_iff (n.isNested = true ∧ (∀ c ∈ n.preorder, src.IsBoundary c.start) ∧
      ∀ c ∈ n.preorder, src.IsBoundary c.stop)
    ⟨fun h => ⟨h.1, h.2.1, h.2.2⟩, fun h => ⟨h.nested, h.start, h.stop⟩⟩

variable {src : Source} {n : Node}

/-- Children are well placed. -/
theorem WellPlaced.child (h : WellPlaced src n) {c : Node} (hc : c ∈ n.children) :
    WellPlaced src c := by
  have sub : ∀ d ∈ c.preorder, d ∈ n.preorder := fun d hd =>
    preorder_trans hd (child_mem_preorder hc (mem_preorder_self n))
  refine ⟨?_, fun d hd => h.start d (sub d hd), fun d hd => h.stop d (sub d hd)⟩
  exact List.all_eq_true.2 fun d hd => List.all_eq_true.1 h.nested d (sub d hd)

theorem le_of_followBetween {cursor stop : Nat} {cs : List Node}
    (h : followBetween cursor stop cs = true) : cursor ≤ stop := by
  induction cs generalizing cursor with
  | nil => simpa [followBetween] using h
  | cons c cs ih =>
    simp only [followBetween, Bool.and_eq_true, decide_eq_true_eq] at h
    have := ih h.2
    omega

/-- In the octets of a text, spans fit together if they start and stop between characters. -/
theorem WellPlaced.of_isCut {name text : String} (hnested : n.isNested = true)
    (hcut : ∀ c ∈ n.preorder, IsCut text c.start ∧ IsCut text c.stop) :
    WellPlaced (.ofText name text) n where
  nested := hnested
  start c hc := (isCut_iff.1 (hcut c hc).1).1
  stop c hc := (isCut_iff.1 (hcut c hc).2).1

/-- They follow one another. -/
theorem WellPlaced.follow (h : WellPlaced src n) :
    followBetween n.start n.stop n.children = true :=
  List.all_eq_true.1 h.nested n (mem_preorder_self n)

end Node

namespace Expression

open Node

/-! ### The topmost replacements -/

section Topmost

variable (replace : Option Node → Node → Option String)

/-- The replacement of the first node of a lineage, whose parent comes next. -/
def replacement? : List Node → Option String
  | [] => none
  | n :: above => replace above.head? n

/-- Is no node of the lineage replaced? -/
def isKept : List Node → Bool
  | [] => true
  | n :: above => (replace above.head? n).isNone && isKept above

/-- The replacement of the first node of a lineage, unless a node above it is replaced. -/
def topmost? : List Node → Option (Node × String)
  | [] => none
  | n :: above =>
    if isKept replace above then (replace above.head? n).map fun text => (n, text) else none

/-- The replaced nodes of a tree that stand below no other replaced node, in pre-order. -/
def topmost (n : Node) : List (Node × String) := (n.lineages []).filterMap (topmost? replace)

variable {replace}

/-- There is nothing topmost below a node that is replaced. -/
theorem topmost_of_not_isKept {above : List Node} (h : isKept replace above = false) (n : Node) :
    (n.lineages above).filterMap (topmost? replace) = [] := by
  induction n using treeInduction generalizing above with
  | node n ih =>
    have below : isKept replace (n :: above) = false := by rw [isKept, h, Bool.and_false]
    rw [lineages_eq, List.filterMap_cons_none (by simp [topmost?, h]), List.filterMap_flatMap]
    exact List.flatMap_eq_nil_iff.2 fun c hc => ih c hc below

/-- A node that is replaced is all that is topmost in its tree. -/
theorem topmost_of_some {above : List Node} (h : isKept replace above = true) {n : Node}
    {text : String} (htext : replace above.head? n = some text) :
    (n.lineages above).filterMap (topmost? replace) = [(n, text)] := by
  have below : isKept replace (n :: above) = false := by simp [isKept, htext]
  rw [lineages_eq, List.filterMap_cons_some (b := (n, text)) (by simp [topmost?, h, htext]),
    List.filterMap_flatMap, List.flatMap_eq_nil_iff.2 fun c _ => topmost_of_not_isKept below c]

/-- In a node that is kept, the topmost replacements are those in its children. -/
theorem topmost_of_none {above : List Node} {n : Node} (h : replace above.head? n = none) :
    (n.lineages above).filterMap (topmost? replace) =
      n.children.flatMap fun c => (c.lineages (n :: above)).filterMap (topmost? replace) := by
  rw [lineages_eq, List.filterMap_cons_none (by simp [topmost?, h]), List.filterMap_flatMap]

end Topmost

/-! ### Weaving -/

/-- The text of a source from `cursor` to `stop`, with replacements for some nodes in it. -/
def weave (src : Source) (cursor stop : Nat) : List (Node × String) → String
  | [] => src.slice cursor stop
  | r :: rest => src.slice cursor r.1.start ++ r.2 ++ weave src r.1.stop stop rest

/-- The replaced nodes follow one another from `cursor` to `stop`, and no one of these offsets is
inside a character. -/
def Fits (src : Source) (cursor stop : Nat) : List (Node × String) → Prop
  | [] => src.IsBoundary cursor ∧ cursor ≤ stop
  | r :: rest => src.IsBoundary cursor ∧ cursor ≤ r.1.start ∧ src.IsBoundary r.1.start ∧
      r.1.start ≤ r.1.stop ∧ Fits src r.1.stop stop rest

section Weave

variable {src : Source} {a b c : Nat} {rs : List (Node × String)}

/-- A gap before the first replacement may be longer. -/
theorem Fits.widen (h : Fits src b c rs) (ha : src.IsBoundary a) (hab : a ≤ b) :
    Fits src a c rs := by
  cases rs with
  | nil => exact ⟨ha, Nat.le_trans hab h.2⟩
  | cons r rs => exact ⟨ha, Nat.le_trans hab h.2.1, h.2.2⟩

theorem Fits.append {rs' : List (Node × String)} (h : Fits src a b rs) (h' : Fits src b c rs') :
    Fits src a c (rs ++ rs') := by
  induction rs generalizing a with
  | nil => exact h'.widen h.1 h.2
  | cons r rs ih =>
    obtain ⟨ha, hstart, hboundary, hspan, hrest⟩ := h
    exact ⟨ha, hstart, hboundary, hspan, ih hrest⟩

/-- The text in front of what is woven becomes part of its first gap. -/
theorem slice_append_weave (ha : src.IsBoundary a) (hab : a ≤ b) (h : Fits src b c rs) :
    src.slice a b ++ weave src b c rs = weave src a c rs := by
  cases rs with
  | nil => exact Source.slice_append hab h.2 ha h.1
  | cons r rs =>
    obtain ⟨hb, hstart, -⟩ := h
    calc
      src.slice a b ++ (src.slice b r.1.start ++ r.2 ++ weave src r.1.stop c rs)
        = (src.slice a b ++ src.slice b r.1.start) ++ r.2 ++ weave src r.1.stop c rs := by
          simp only [String.append_assoc]
      _ = src.slice a r.1.start ++ r.2 ++ weave src r.1.stop c rs := by
          rw [Source.slice_append hab hstart ha hb]

/-- What is woven in two parts is woven as one. -/
theorem weave_append {rs' : List (Node × String)} (h : Fits src a b rs) (h' : Fits src b c rs') :
    weave src a b rs ++ weave src b c rs' = weave src a c (rs ++ rs') := by
  induction rs generalizing a with
  | nil => exact slice_append_weave h.1 h.2 h'
  | cons r rs ih =>
    obtain ⟨-, -, -, -, hrest⟩ := h
    rw [List.cons_append, weave, weave, String.append_assoc, ih hrest]

end Weave

/-! ### Splicing -/

section Splicing

variable {src : Source} {replace : Option Node → Node → Option String}

/-- Replacements that fit in each of several nodes fit in all of them, one after another. -/
theorem fits_flatMap {cursor stop : Nat} {cs : List Node} {f : Node → List (Node × String)}
    (hcursor : src.IsBoundary cursor) (hfollow : followBetween cursor stop cs = true)
    (hstop : ∀ c ∈ cs, src.IsBoundary c.stop) (hf : ∀ c ∈ cs, Fits src c.start c.stop (f c)) :
    Fits src cursor stop (cs.flatMap f) := by
  induction cs generalizing cursor with
  | nil => exact ⟨hcursor, le_of_followBetween hfollow⟩
  | cons c cs ih =>
    simp only [followBetween, Bool.and_eq_true, decide_eq_true_eq] at hfollow
    obtain ⟨⟨hbefore, -⟩, hrest⟩ := hfollow
    rw [List.flatMap_cons]
    refine ((hf c (by simp)).widen hcursor hbefore).append ?_
    exact ih (hstop c (by simp)) hrest (fun d hd => hstop d (by simp [hd]))
      fun d hd => hf d (by simp [hd])

/-- The topmost replacements of a tree fit in its span. -/
theorem fits_topmost {above : List Node} {n : Node} (hplaced : WellPlaced src n)
    (habove : isKept replace above = true) :
    Fits src n.start n.stop ((n.lineages above).filterMap (topmost? replace)) := by
  induction n using treeInduction generalizing above with
  | node n ih =>
    have hstart := hplaced.start n (mem_preorder_self n)
    have hstop := hplaced.stop n (mem_preorder_self n)
    cases htext : replace above.head? n with
    | some text =>
      -- The one replacement takes the whole span, with empty gaps around it.
      rw [topmost_of_some habove htext]
      exact ⟨hstart, Nat.le_refl _, hstart, le_of_followBetween hplaced.follow, hstop,
        Nat.le_refl _⟩
    | none =>
      have below : isKept replace (n :: above) = true := by simp [isKept, htext, habove]
      rw [topmost_of_none htext]
      refine fits_flatMap hstart hplaced.follow (fun c hc => ?_) fun c hc =>
        ih c hc (hplaced.child hc) below
      exact (hplaced.child hc).stop c (mem_preorder_self c)

variable {m : Type → Type} [Monad m] [LawfulMonad m] {bound : Nat}
  {effect : Option Node → (n : Node) → n.size ≤ bound → m (Option String)}

mutual

/-- **Splicing is exact.** A node is written as its source text with the topmost replacements woven
into it. -/
theorem spliceNode_exact (above : List Node) {n : Node} (h : n.size ≤ bound)
    (hplaced : WellPlaced src n) (habove : isKept replace above = true)
    (heffect : ∀ c ∈ n.preorder, ∀ parent hc, effect parent c hc = pure (replace parent c)) :
    spliceNode src bound effect above.head? n h =
      pure (weave src n.start n.stop ((n.lineages above).filterMap (topmost? replace))) := by
  have hstart := hplaced.start n (mem_preorder_self n)
  rw [spliceNode, heffect n (mem_preorder_self n), pure_bind]
  cases htext : replace above.head? n with
  | some text => simp [topmost_of_some habove htext, weave]
  | none =>
    have below : isKept replace (n :: above) = true := by simp [isKept, htext, habove]
    rw [topmost_of_none htext]
    dsimp only
    split
    case isTrue hleaf => rw [List.isEmpty_iff.1 hleaf, List.flatMap_nil, weave, Source.text]
    case isFalse =>
      refine spliceChildren_exact _ hstart hplaced.follow below (fun c hc => hplaced.child hc)
        fun c hc d hd => heffect d ?_
      exact preorder_trans hd (child_mem_preorder hc (mem_preorder_self n))
termination_by 2 * n.size
decreasing_by
  rw [Node.size_eq n]
  omega

theorem spliceChildren_exact {above : List Node} {n : Node} {cursor : Nat} {cs : List Node}
    (h : Node.sizeAll cs ≤ bound) (hcursor : src.IsBoundary cursor)
    (hfollow : followBetween cursor n.stop cs = true)
    (hkept : isKept replace (n :: above) = true) (hplaced : ∀ c ∈ cs, WellPlaced src c)
    (heffect : ∀ c ∈ cs, ∀ d ∈ c.preorder, ∀ parent hd,
      effect parent d hd = pure (replace parent d)) :
    spliceChildren src bound effect n cursor cs h =
      pure (weave src cursor n.stop
        (cs.flatMap fun c => (c.lineages (n :: above)).filterMap (topmost? replace))) := by
  match cs with
  | [] => rw [spliceChildren, List.flatMap_nil, weave]
  | c :: rest =>
    have hc : c ∈ c :: rest := List.mem_cons_self ..
    have hother {d : Node} (hd : d ∈ rest) : d ∈ c :: rest := List.mem_cons_of_mem _ hd
    have hstop := (hplaced c hc).stop c (mem_preorder_self c)
    simp only [followBetween, Bool.and_eq_true, decide_eq_true_eq] at hfollow
    obtain ⟨⟨hbefore, -⟩, hrest⟩ := hfollow
    -- The gap before the child, what is woven in it and what is woven after it meet at boundaries.
    have inner := fits_topmost (hplaced c hc) hkept
    have others : Fits src c.stop n.stop
        (rest.flatMap fun d => (d.lineages (n :: above)).filterMap (topmost? replace)) :=
      fits_flatMap hstop hrest
        (fun d hd => (hplaced d (hother hd)).stop d (mem_preorder_self d))
        fun d hd => fits_topmost (hplaced d (hother hd)) hkept
    have first : spliceNode src bound effect (some n) c (Node.size_head_le h) = _ :=
      spliceNode_exact (n :: above) _ (hplaced c hc) hkept (heffect c hc)
    have tail : spliceChildren src bound effect n c.stop rest (Node.sizeAll_tail_le h) = _ :=
      spliceChildren_exact _ hstop hrest hkept (fun d hd => hplaced d (hother hd))
        fun d hd => heffect d (hother hd)
    rw [spliceChildren, first, pure_bind, tail, pure_bind,
      slice_append_weave hcursor hbefore inner,
      weave_append (inner.widen hcursor hbefore) others, List.flatMap_cons]
termination_by 2 * Node.sizeAll cs + 1
decreasing_by
  all_goals
    have := c.size_pos
    simp only [Node.sizeAll_cons]
    omega

end

end Splicing

/-! ### Splicing without effects -/

/-- Where no node is replaced, nothing is topmost. -/
theorem topmost_eq_nil {replace : Option Node → Node → Option String} {n : Node}
    (h : ∀ l ∈ n.lineages [], replacement? replace l = none) : topmost replace n = [] := by
  refine List.filterMap_eq_nil_iff.2 fun l hl => ?_
  have := h l hl
  cases l with
  | nil => rfl
  | cons c above => simp_all [replacement?, topmost?]

/-- **Splicing without effects is exact.** In the octets of a text, let the children of each node
follow one another in its span, and let no span start or stop inside a character. Then splicing
writes the source text with each topmost replacement in place of its node; if there is none, it
writes the text of the node. -/
theorem splice_exact {name text : String} {n : Node} (hnested : n.isNested = true)
    (hcut : ∀ c ∈ n.preorder, IsCut text c.start ∧ IsCut text c.stop)
    (replace : Option Node → Node → Option String) :
    splice (.ofText name text) replace n =
        weave (.ofText name text) n.start n.stop (topmost replace n) ∧
      ((∀ l ∈ n.lineages [], replacement? replace l = none) →
        splice (.ofText name text) replace n = (Source.ofText name text).text n) := by
  have exact : splice (.ofText name text) replace n =
      weave (.ofText name text) n.start n.stop (topmost replace n) :=
    spliceNode_exact [] _ (.of_isCut hnested hcut) rfl fun _ _ _ _ => rfl
  refine ⟨exact, fun hnone => ?_⟩
  rw [exact, topmost_eq_nil hnone, weave, Source.text]

section Sample

/-- `f(é, g(ü) /* ß */)`, a call with another call in it. -/
def accentedCall : Node :=
  plain "call_expression" 0 21
    [plain "identifier" 0 1 [] (some "function"),
     plain "arguments" 1 21
      [plain "identifier" 2 4 [],
       plain "call_expression" 6 11
        [plain "identifier" 6 7 [] (some "function"),
         plain "arguments" 7 11 [plain "identifier" 8 10 []] (some "arguments")],
       plain "comment" 12 20 []] (some "arguments")]

/-- A replacement for each argument that is a name or a call. -/
def argumentNames (parent : Option Node) (n : Node) : Option String :=
  if (parent.map kind) = some "arguments" then
    match n.kind with
    | "identifier" => some "x"
    | "call_expression" => some "y"
    | _ => none
  else none

/-- The inner call is replaced as a whole, and the comment behind it is copied. -/
theorem splice_exact_of_accents :
    accentedCall.isNested = true ∧
    (∀ c ∈ accentedCall.preorder,
      IsCut "f(é, g(ü) /* ß */)" c.start ∧ IsCut "f(é, g(ü) /* ß */)" c.stop) ∧
    (topmost argumentNames accentedCall).map (fun r => (r.1.span, r.2)) =
      [((2, 4), "x"), ((6, 11), "y")] ∧
    splice (.ofText "" "f(é, g(ü) /* ß */)") argumentNames accentedCall = "f(x, y /* ß */)" := by
  have nested : accentedCall.isNested = true := by decide +kernel
  have cut : ∀ c ∈ accentedCall.preorder,
      IsCut "f(é, g(ü) /* ß */)" c.start ∧ IsCut "f(é, g(ü) /* ß */)" c.stop := by
    decide +kernel
  refine ⟨nested, cut, by decide +kernel, ?_⟩
  rw [(splice_exact nested cut argumentNames).1]
  decide +kernel

end Sample

end Expression

end Sveltify
