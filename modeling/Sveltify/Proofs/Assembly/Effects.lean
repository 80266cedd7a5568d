import Sveltify.Proofs.Analysis.Reading
import Sveltify.Proofs.Assembly.Layout

namespace Sveltify.Assembly

open Analysis Component Expression Svelte

/-!
# What becomes of cleanups

An effect may end with a value: the function that cleans up after it. If its callback has a block,
this is the value of the final return, and the Svelte effect returns the same. If its callback is an
arrow with an expression, it is the value of that expression, and the Svelte effect returns it only
where the expression is a call. A function in its place is written down and dropped.

* `BlockEnd`: how the block of a callback ends;
* `IsFragment`: the text that a statement of a callback becomes;
* `EffectWritten`: what a callback becomes, case by case;
* `cleanups_of_effects`: every effect of a component becomes what `EffectWritten` says;
* `cleanup_function_dropped`: a cleanup that does not survive.
-/

variable {src : Source} {model : Model} {indent : String}

/-! ### Blocks -/

/-- Is the value the plain word `undefined`? -/
def isUndefined (src : Source) (v : Node) : Bool :=
  v.kind == "identifier" && src.text v == "undefined"

/-- How a block ends: the statements before its final return, and the value that is returned. -/
inductive BlockEnd (src : Source) : List Node → List Node → Option Node → Prop
  /-- A value is returned. -/
  | value {init : List Node} {last v : Node} (hlast : last.kind = "return_statement")
      (hv : last.firstNamed? = some v) (hdefined : isUndefined src v = false) :
      BlockEnd src (init ++ [last]) init (some v)
  /-- Nothing is returned, or `undefined`. -/
  | nothing {init : List Node} {last : Node} (hlast : last.kind = "return_statement")
      (hv : ∀ v, last.firstNamed? = some v → isUndefined src v = true) :
      BlockEnd src (init ++ [last]) init none
  /-- The last statement is no return. -/
  | open {statements : List Node}
      (hlast : ∀ last, statements.getLast? = some last → last.kind ≠ "return_statement") :
      BlockEnd src statements statements none

/-- A block ends in its cleanup, or has none. -/
theorem blockEnd_effectBlock (statements : List Node) :
    BlockEnd src statements (effectBlock src statements).1 (effectBlock src statements).2 := by
  unfold effectBlock
  cases hlast : statements.getLast? with
  | none =>
    rw [List.getLast?_eq_none_iff.1 hlast]
    exact .open (by simp)
  | some last =>
    obtain ⟨init, rfl⟩ := List.getLast?_eq_some_iff.1 hlast
    dsimp only
    split
    case isTrue hkind =>
      -- The block ends with a return, which gives a cleanup unless it gives `undefined`.
      rw [List.dropLast_concat]
      cases hv : last.firstNamed? with
      | none => exact .nothing (by simpa using hkind) (by simp [hv])
      | some v =>
        show BlockEnd src (init ++ [last]) init ((some v).filter fun v => !isUndefined src v)
        rw [Option.filter_some]
        cases hdefined : isUndefined src v with
        | true =>
          refine .nothing (by simpa using hkind) fun v' hv' => ?_
          rw [hv] at hv'
          cases hv'
          exact hdefined
        | false => exact .value (by simpa using hkind) hv hdefined
    case isFalse hkind =>
      -- Without a return at its end the block is kept whole.
      refine .open fun last' hlast' => ?_
      rw [hlast] at hlast'
      cases hlast'
      simpa using hkind

/-! ### Callbacks -/

/-- Is the value of the expression returned from an effect? That of a call is, unless the call sets
state. -/
def isReturned (model : Model) (e : Node) : Bool :=
  e.kind == "call_expression" && !callsSetter model e

/-- The text that a statement of a callback becomes, or its expression if it has no block. -/
def IsFragment (src : Source) (model : Model) (isExpression : Bool) (n : Node) (text : String) :
    Prop :=
  if isExpression then
    ∃ inner t, n.bare? = some inner ∧ textOf? src model true n = some t ∧
      text = if isReturned model inner then s!"return {t};" else s!"{t};"
  else textOf? src model false n = some text

/-- The body of an effect is one fragment. -/
theorem yields_effectExpression (n : Node) :
    Yields (IsFragment src model true n) (effectExpression src model n) := by
  intro p text q hrun
  obtain ⟨inner, p₁, hinner, hrun⟩ := bind_ok_iff.1 hrun
  obtain ⟨t, p₂, ht, hrun⟩ := bind_ok_iff.1 hrun
  refine ⟨inner, t, (need_ok_iff.1 hinner).1, yields_convertedText true n ht, ?_⟩
  unfold isReturned
  split at hrun <;> cases hrun
  · rw [if_pos ‹_›]
  · rw [if_neg ‹_›]

theorem yields_convertedText? (n : Option Node) :
    Yields (Option.Rel (fun v t => textOf? src model false v = some t) n)
      (convertedText? src model n) := by
  cases n with
  | none => exact .pure .none
  | some v => exact (yields_convertedText false v).andThen fun t ht => .pure (.some ht)

/-- The declaration of an effect holds its statements and its cleanup, one by one. -/
theorem yields_effectDeclaration {e : EffectBinding} (h : e.isFunctionReference = false) :
    Yields (fun d => List.Forall₂ (IsFragment src model e.hasExpressionBody) e.statements d.body ∧
        Option.Rel (fun v t => textOf? src model false v = some t) e.cleanup d.cleanup)
      (effectDeclaration src model e) := by
  unfold effectDeclaration
  rw [h]
  refine .bind fun callback => ?_
  have fragment (s : Node) : Yields (IsFragment src model e.hasExpressionBody s)
      (if e.hasExpressionBody then effectExpression src model s
        else convertedText src model false s) := by
    cases e.hasExpressionBody with
    | true => exact yields_effectExpression s
    | false => exact yields_convertedText false s
  refine (Yields.mapM fun s _ => fragment s).andThen fun body hbody => ?_
  refine (yields_convertedText? e.cleanup).andThen fun cleanup hcleanup => ?_
  exact .pure ⟨hbody, hcleanup⟩

/-! ### Effects -/

/-- What an effect with the callback `inner` becomes. -/
inductive EffectWritten (src : Source) (model : Model) (inner : Node) (d : EffectDeclaration) : Prop
  /-- What the final return of a block yields is the cleanup. -/
  | block {body : Node} {init : List Node} {cleanup : Option Node}
      (hbody : inner.field? "body" = some body) (hkind : body.kind = "statement_block")
      (hend : BlockEnd src body.namedChildren init cleanup)
      (hinit : List.Forall₂ (IsFragment src model false) init d.body)
      (hcleanup : Option.Rel (fun v t => textOf? src model false v = some t) cleanup d.cleanup)
  /-- An expression is the whole body, and there is no cleanup beside it. -/
  | expression {body : Node} {fragment : String} (hbody : inner.field? "body" = some body)
      (hkind : body.kind ≠ "statement_block") (hfragment : IsFragment src model true body fragment)
      (hall : d.body = [fragment]) (hcleanup : d.cleanup = none)
  /-- The callback has no body. -/
  | missing (hbody : inner.field? "body" = none) (hall : d.body = []) (hcleanup : d.cleanup = none)

theorem eq_none_of_rel {α β : Type} {R : α → β → Prop} {o : Option β}
    (h : Option.Rel R none o) : o = none := by
  cases h
  rfl

/-- An effect is written as it was read. -/
theorem effectWritten_of_run {e : EffectBinding} {hook : HookCall} {inner : Node}
    (hread : EffectRead src e hook inner) (hfunction : inner.isFunction = true)
    {d : EffectDeclaration} {p q : Progress} (hrun : effectDeclaration src model e p = .ok d q) :
    EffectWritten src model inner d := by
  have reference : e.isFunctionReference = false := by
    rw [hread.eq, effectOf, hfunction]
    rfl
  have statements := congrArg EffectBinding.statements hread.eq
  have cleanup := congrArg EffectBinding.cleanup hread.eq
  have isExpression := congrArg EffectBinding.hasExpressionBody hread.eq
  obtain ⟨hall, hcleanup⟩ := yields_effectDeclaration reference hrun
  simp only [effectOf, hfunction, if_true] at statements cleanup isExpression
  rw [statements, isExpression] at hall
  rw [cleanup] at hcleanup
  -- The binding has been read off the body: a block, an expression, or nothing.
  cases hbody : inner.field? "body" with
  | none =>
    simp only [hbody] at hall hcleanup
    exact .missing hbody (List.forall₂_nil_left_iff.1 hall) (eq_none_of_rel hcleanup)
  | some body =>
    by_cases hkind : body.kind = "statement_block"
    · have hblock : (some body).any (·.kind == "statement_block") = true := by simp [hkind]
      simp only [hbody, hblock, if_true] at hall hcleanup
      exact .block hbody hkind (blockEnd_effectBlock _) hall hcleanup
    · have hblock : (some body).any (·.kind == "statement_block") = false := by simp [hkind]
      simp only [hbody, hblock] at hall hcleanup
      obtain ⟨fragment, rest, hfragment, hrest, hd⟩ := List.forall₂_cons_left_iff.1 hall
      rw [List.forall₂_nil_left_iff.1 hrest] at hd
      exact .expression hbody hkind hfragment hd (eq_none_of_rel hcleanup)

/-- The effect becomes one entry: what `EffectWritten` says of its callback, if that is a function,
or a placeholder if the callback holds something that is refused. -/
def EffectEntry (src : Source) (model : Model) (e : EffectBinding) (entry : ScriptNode) : Prop :=
  ∃ hook inner, EffectRead src e hook inner ∧
    ((∃ d, entry = .effect d ∧ (inner.isFunction = true → EffectWritten src model inner d)) ∨
      ∃ ph r, entry = .placeholder ph ∧ refusalOf (effectNodes src model e) = some r)

/-- It is one entry of the script. -/
theorem effectEntry_of_written {e : EffectBinding}
    (hread : ∃ hook inner, EffectRead src e hook inner) {entries : List ScriptNode}
    (h : Written src (effectPiece src model e) entries) :
    ∃ entry, entries = [entry] ∧ EffectEntry src model e entry := by
  obtain ⟨hook, inner, hread⟩ := hread
  cases h with
  -- The text of the callback is refused.
  | @left r ph hr _ => exact ⟨_, rfl, hook, inner, hread, .inr ⟨ph, r, rfl, hr⟩⟩
  | built hrun =>
    obtain ⟨_, p₁, _, hrun⟩ := bind_ok_iff.1 hrun
    obtain ⟨d, p₂, hd, hrun⟩ := bind_ok_iff.1 hrun
    cases hrun
    refine ⟨_, rfl, hook, inner, hread, .inl ⟨d, rfl, fun hfunction => ?_⟩⟩
    exact effectWritten_of_run hread hfunction hd

/-- **Cleanups of effects.** Whatever component is analysed and assembled, each of its effects has
an entry of its own in the script. An effect whose callback has a block keeps its cleanup, the value
of the final return. An effect whose callback is an arrow with an expression has no cleanup beside its
body; the value of the expression is returned if it is a call and sets no state, and is dropped
otherwise. -/
theorem cleanups_of_effects {m : Module} {o : Options} {r₁ r₂ reports reports' : List Report}
    {model : Model} {c : SvelteComponent} (hmodel : analyze m o r₁ = .ok model r₂)
    (hrun : toSvelte m.source model indent reports = .ok c reports') :
    ∃ entries : List ScriptNode, entries.Subperm c.script ∧
      List.Forall₂ (EffectEntry m.source model) model.effects entries := by
  obtain ⟨l⟩ := exists_layout hrun
  have effects : (model.effects.map (effectPiece m.source model)).Sublist
      (orderedPieces m.source model indent) := by
    have among : (model.effects.map (effectPiece m.source model)).Sublist
        (declarationPieces m.source model indent) :=
      (List.sublist_append_right _ _).trans <| (List.sublist_append_left _ _).trans <|
        (List.sublist_append_left _ _).trans (List.sublist_append_left _ _)
    exact among.trans (List.sublist_append_right _ _)
  obtain ⟨groups, hgroups, hwritten⟩ := l.exists_entries effects
  rw [List.forall₂_map_left_iff] at hwritten
  refine ⟨groups.flatten, hgroups, forall₂_flatten hwritten fun e he g hg => ?_⟩
  exact effectEntry_of_written (effectRead_of_analyze hmodel e he) hg

section Sample

open Node

/-- A component with an effect that has this callback and an empty list of dependencies. -/
def effectModule (text : String) (callback : Node) : Module :=
  let stop := callback.stop
  appModule text [] 15
    [plain "expression_statement" 17 (stop + 6) [plain "call_expression" 17 (stop + 5)
      [plain "identifier" 17 26 [] (some "function"),
       plain "arguments" 26 (stop + 5) [callback, plain "array" (stop + 2) (stop + 4) []]
        (some "arguments")]],
     plain "return_statement" (stop + 7) (stop + 19) [emptyElement (stop + 14) none]]

/-- An arrow without parameters that calls `stop`. -/
def stopArrow (start : Nat) (field : Option String) : Node :=
  plain "arrow_function" start (start + 12)
    [plain "formal_parameters" start (start + 2) [] (some "parameters"),
     plain "call_expression" (start + 6) (start + 12)
      [plain "identifier" (start + 6) (start + 10) [] (some "function"),
       plain "arguments" (start + 10) (start + 12) [] (some "arguments")] (some "body")] field

/-- An effect with a block that ends by returning its cleanup. -/
def blockEffectModule : Module :=
  effectModule
    "function App() \x7b useEffect(() => \x7b go(); return () => stop(); \x7d, []); return <p/>; \x7d"
    (plain "arrow_function" 27 63
      [plain "formal_parameters" 27 29 [] (some "parameters"),
       plain "statement_block" 33 63
        [plain "expression_statement" 35 40 [plain "call_expression" 35 39
          [plain "identifier" 35 37 [] (some "function"),
           plain "arguments" 37 39 [] (some "arguments")]],
         plain "return_statement" 41 61 [stopArrow 48 none]] (some "body")])

/-- What becomes of it. -/
def blockEffect : EffectDeclaration where
  rune := .onMount
  body := ["go();"]
  cleanup := some "() => stop()"

/-- The cleanup of the block is kept. -/
theorem cleanups_of_effects_of_block : ∃ model reports c reports',
    analyze blockEffectModule {} [] = .ok model reports ∧
    toSvelte blockEffectModule.source model "  " reports = .ok c reports' ∧
    c.script = [.effect blockEffect] ∧
    ∃ entries : List ScriptNode, entries.Subperm c.script ∧
      List.Forall₂ (EffectEntry blockEffectModule.source model) model.effects entries := by
  have test : endsIn (analyze blockEffectModule {}) [] (fun model reports =>
      endsIn (toSvelte blockEffectModule.source model "  ") reports (fun c _ =>
        c.script == [.effect blockEffect])) = true := by
    decide +kernel
  obtain ⟨model, reports, hmodel, hchecked⟩ := exists_ok_of_endsIn test
  obtain ⟨c, reports', hrun, hscript⟩ := exists_ok_of_endsIn hchecked
  exact ⟨model, reports, c, reports', hmodel, hrun, eq_of_beq hscript,
    cleanups_of_effects hmodel hrun⟩

/-- An effect with an expression that is its cleanup. -/
def arrowEffectModule : Module :=
  effectModule "function App() \x7b useEffect(() => () => stop(), []); return <p/>; \x7d"
    (plain "arrow_function" 27 45
      [plain "formal_parameters" 27 29 [] (some "parameters"), stopArrow 33 (some "body")])

/-- What becomes of it. -/
def arrowEffect : EffectDeclaration where
  rune := .onMount
  body := ["() => stop();"]
  cleanup := none

/-- The cleanup is written down, but neither kept nor returned. -/
theorem cleanup_function_dropped : ∃ model reports c reports',
    analyze arrowEffectModule {} [] = .ok model reports ∧
    toSvelte arrowEffectModule.source model "  " reports = .ok c reports' ∧
    c.script = [.effect arrowEffect] := by
  have test : endsIn (analyze arrowEffectModule {}) [] (fun model reports =>
      endsIn (toSvelte arrowEffectModule.source model "  ") reports (fun c _ =>
        c.script == [.effect arrowEffect])) = true := by
    decide +kernel
  obtain ⟨model, reports, hmodel, hchecked⟩ := exists_ok_of_endsIn test
  obtain ⟨c, reports', hrun, hscript⟩ := exists_ok_of_endsIn hchecked
  exact ⟨model, reports, c, reports', hmodel, hrun, eq_of_beq hscript⟩

end Sample

end Sveltify.Assembly
