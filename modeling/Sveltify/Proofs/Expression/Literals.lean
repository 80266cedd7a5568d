import Mathlib.Data.List.TakeWhile
import Sveltify.Proofs.Analysis.TopLevel
import Sveltify.Proofs.Expression.Written
import Sveltify.Proofs.Lines

namespace Sveltify.Expression

open Analysis Component Node Text

/-!
# Template literals in converted text

The later lines of a template literal are part of its value, so they must not be moved to the left
margin with the lines around them. Which lines these are is told by counting the lines of the
source, while the lines that are moved are those of the converted text.

* `getElem?_outdent`: a line of a text that is moved to the left margin;
* `IsFlush`, `leading_outdentLine_iff`: when such a line keeps the blanks it starts with;
* `Copies`: a conversion copies a literal, behind one text and in front of another;
* `Copies.writes`: this is what the conversion writes;
* `literal_lines`: what becomes of the later lines of a literal. They are kept if the literal is
  written as many lines below the start of the text as it is in the source.
-/

variable {src : Source} {model : Model}

/-! ### Lines moved to the left margin -/

/-- A line behind the first is moved for itself. -/
theorem getElem?_outdent (text : String) (n : Node) (i : Nat) :
    (outdent src text n)[i + 1]? = (lines text)[i + 1]?.map (outdentLine src n (i + 1)) := by
  unfold outdent
  split
  case h_1 first second rest hlines =>
    rw [hlines, List.getElem?_cons_succ, List.getElem?_mapIdx, List.getElem?_cons_succ]
  case h_2 hsingle =>
    cases hlines : lines text with
    | nil => rfl
    | cons first rest =>
      cases rest with
      | nil => rfl
      | cons second rest => exact absurd hlines (hsingle first second rest)

/-- The blanks at the start of a text. -/
def leading (s : String) : List Char := s.toList.takeWhile isBlank

/-- Moving the line to the left margin does not touch its start: there is nothing to take off, and
the line is not blank throughout. -/
def IsFlush (src : Source) (n : Node) (line : String) : Prop :=
  (lineIndent src n = 0 ∨ line.toList.head?.any isIndent = false) ∧
    (isAllBlank line = true → line = "")

instance (src : Source) (n : Node) (line : String) : Decidable (IsFlush src n line) :=
  inferInstanceAs (Decidable (_ ∧ _))

theorem isBlank_of_isIndent {c : Char} (h : isIndent c = true) : isBlank c = true := by
  rcases Bool.or_eq_true_iff.1 h with h | h <;> rw [eq_of_beq h] <;> rfl

/-- The indentation that is taken off consists of blanks; none is taken off if there is nothing to
take off. -/
theorem exists_indent (width : Nat) (cs : List Char) :
    ∃ indent, cs = indent ++ dropIndent width cs ∧ (∀ c ∈ indent, isBlank c = true) ∧
      (indent = [] ↔ width = 0 ∨ cs.head?.any isIndent = false) := by
  induction cs generalizing width with
  | nil => exact ⟨[], by cases width <;> rfl, by simp, by simp⟩
  | cons c cs ih =>
    cases width with
    | zero => exact ⟨[], rfl, by simp, by simp⟩
    | succ width =>
      by_cases hc : isIndent c = true
      · obtain ⟨indent, hparts, hblank, -⟩ := ih width
        refine ⟨c :: indent, ?_, ?_, by simp [hc]⟩
        · rw [dropIndent, if_pos hc, List.cons_append, ← hparts]
        · exact List.forall_mem_cons.2 ⟨isBlank_of_isIndent hc, hblank⟩
      · exact ⟨[], by rw [dropIndent, if_neg hc]; rfl, by simp, by simp [hc]⟩

theorem takeWhile_append_of_letter {xs : List Char} (h : ¬ ∀ c ∈ xs, isBlank c = true)
    (ys : List Char) : (xs ++ ys).takeWhile isBlank = xs.takeWhile isBlank := by
  rw [List.takeWhile_append, if_neg]
  intro hlength
  refine h fun c hc => ?_
  rw [← (List.takeWhile_prefix isBlank).eq_of_length hlength] at hc
  exact List.all_eq_true.1 List.all_takeWhile c hc

/-- Blanks at the end are taken off together with those at the start if there is nothing else. -/
theorem leading_stripEnd (s : String) :
    leading (stripEnd s) = if isAllBlank s then [] else leading s := by
  unfold leading
  rw [stripEnd, stripEndOf, String.toList_ofList, isAllBlank]
  by_cases hs : ∀ c ∈ s.toList, isBlank c = true
  · rw [if_pos (List.all_eq_true.2 hs), dropEndWhile,
      List.dropWhile_eq_nil_iff.2 fun c hc => hs c (List.mem_reverse.1 hc)]
    rfl
  · -- A text with a letter loses only what stands after its last letter.
    have parted : s.toList =
        dropEndWhile isBlank s.toList ++ (s.toList.reverse.takeWhile isBlank).reverse := by
      rw [dropEndWhile, ← List.reverse_append, List.takeWhile_append_dropWhile,
        List.reverse_reverse]
    have letter : ¬ ∀ c ∈ dropEndWhile isBlank s.toList, isBlank c = true := by
      intro hall
      refine hs fun c hc => ?_
      rw [parted, List.mem_append, List.mem_reverse] at hc
      rcases hc with hc | hc
      · exact hall c hc
      · exact List.all_eq_true.1 List.all_takeWhile c hc
    rw [if_neg (by rwa [List.all_eq_true])]
    nth_rewrite 2 [parted]
    rw [takeWhile_append_of_letter letter]

/-- A line that is moved to the left margin keeps the blanks at its start just if it is protected or
flush. -/
theorem leading_outdentLine_iff (n : Node) (offset : Nat) (line : String) :
    leading (outdentLine src n offset line) = leading line ↔
      isProtected src n offset = true ∨ IsFlush src n line := by
  unfold outdentLine
  by_cases hprotected : isProtected src n offset = true
  · simp [hprotected]
  obtain ⟨indent, hparts, hblank, hnone⟩ := exists_indent (lineIndent src n) line.toList
  -- What is taken off in front is part of the leading blanks.
  have start : leading line =
      indent ++ (dropIndent (lineIndent src n) line.toList).takeWhile isBlank := by
    rw [leading]
    nth_rewrite 1 [hparts]
    rw [List.takeWhile_append_of_pos hblank]
  rw [if_neg hprotected, leading_stripEnd, start, leading, isAllBlank, String.toList_ofList,
    IsFlush, ← hnone, isAllBlank]
  by_cases hall : ∀ c ∈ dropIndent (lineIndent src n) line.toList, isBlank c = true
  · have blank : ∀ c ∈ line.toList, isBlank c = true := by
      rw [hparts]
      exact fun c hc => (List.mem_append.1 hc).elim (hblank c) (hall c)
    rw [if_pos (List.all_eq_true.2 hall), List.takeWhile_eq_self_iff.2 hall, ← hparts,
      eq_comm, String.toList_eq_nil_iff]
    constructor
    · rintro rfl
      exact .inr ⟨(List.append_eq_nil_iff.1 hparts.symm).1, fun _ => rfl⟩
    · rintro (h | ⟨-, h⟩)
      · exact absurd h hprotected
      · exact h (List.all_eq_true.2 blank)
  · have letter : ¬ line.toList.all isBlank = true := fun h =>
      hall fun c hc => List.all_eq_true.1 h c (by rw [hparts]; exact List.mem_append_right _ hc)
    rw [if_neg (by rwa [List.all_eq_true]), List.self_eq_append_left]
    exact ⟨fun h => .inr ⟨h, fun h' => absurd h' letter⟩,
      fun h => (h.resolve_left hprotected).1⟩

/-! ### Literals that are copied -/

/-- What stands in front of the new value in an assignment. -/
def assignmentStart (cell : String) (v : NewValue) (isStatement : Bool) : String :=
  (if isStatement then "" else "(") ++ cell ++ " = " ++ if v.isApplied then "(" else ""

/-- What stands behind the new value in an assignment. -/
def assignmentEnd (cell : String) (v : NewValue) (isStatement : Bool) : String :=
  (if v.isApplied then ")(" ++ cell ++ ")" else "") ++ if isStatement then "" else ")"

theorem assignment_eq (cell text : String) (v : NewValue) (isStatement : Bool) :
    assignment cell (v.text cell text) isStatement =
      assignmentStart cell v isStatement ++ text ++ assignmentEnd cell v isStatement := by
  unfold assignment NewValue.text assignmentStart assignmentEnd
  rw [← String.toList_inj]
  cases isStatement <;> cases v.isApplied <;> simp [toString]

/-- In the course of writing a part of a tree, a conversion copies a node, with this text in front
of it and that behind it. -/
inductive Copies (src : Source) (model : Model) :
    Substitution → Bool → Part → Node → String → String → Prop
  | self {subs : Substitution} {isStatement : Bool} {parent : Option Node} {n : Node}
      {uses : List SetterUse}
      (h : Writes src model subs isStatement (.node parent n) uses (.ok (src.text n))) :
      Copies src model subs isStatement (.node parent n) n "" ""
  /-- In the argument of a setter. -/
  | assigned {subs : Substitution} {isStatement : Bool} {parent : Option Node}
      {n argument copied : Node} {cell : StateBinding} {v : NewValue} {before after : String}
      (hcall : setterCall? model n = some cell)
      (hargument : (Hook.argumentsOf n).head? = some argument)
      (hvalue : newValue? src cell.name subs argument = some v)
      (h : Copies src model v.substitution false (.node none v.node) copied before after) :
      Copies src model subs isStatement (.node parent n) copied
        (assignmentStart cell.name v (standsAlone isStatement parent) ++ before)
        (after ++ assignmentEnd cell.name v (standsAlone isStatement parent))
  /-- Below a node that is not replaced. -/
  | inner {subs : Substitution} {isStatement : Bool} {parent : Option Node} {n copied : Node}
      {before after : String} (hcall : setterCall? model n = none)
      (hfate : Fate src model subs n [] (.ok none)) (hinner : n.children ≠ [])
      (h : Copies src model subs isStatement (.rest n n.start n.children) copied before after) :
      Copies src model subs isStatement (.node parent n) copied before after
  /-- In the next child. -/
  | child {subs : Substitution} {isStatement : Bool} {n c copied : Node} {cursor : Nat}
      {cs : List Node} {before after tail : String} {uses : List SetterUse}
      (h : Copies src model subs isStatement (.node (some n) c) copied before after)
      (hrest : Writes src model subs isStatement (.rest n c.stop cs) uses (.ok tail)) :
      Copies src model subs isStatement (.rest n cursor (c :: cs)) copied
        (src.slice cursor c.start ++ before) (after ++ tail)
  /-- In a child further on. -/
  | later {subs : Substitution} {isStatement : Bool} {n c copied : Node} {cursor : Nat}
      {cs : List Node} {text before after : String} {uses : List SetterUse}
      (hchild : Writes src model subs isStatement (.node (some n) c) uses (.ok text))
      (h : Copies src model subs isStatement (.rest n c.stop cs) copied before after) :
      Copies src model subs isStatement (.rest n cursor (c :: cs)) copied
        (src.slice cursor c.start ++ text ++ before) after

/-- What is copied stands in the text that is written. -/
theorem Copies.writes {subs : Substitution} {isStatement : Bool} {part : Part} {copied : Node}
    {before after : String} (h : Copies src model subs isStatement part copied before after) :
    ∃ uses, Writes src model subs isStatement part uses
      (.ok (before ++ src.text copied ++ after)) := by
  -- By induction on the way to the copy: each step adds text on its left and on its right.
  induction h with
  | self h => exact ⟨_, by simpa using h⟩
  | @assigned _ isStatement parent _ _ copied cell v before after hcall hargument hvalue _ ih =>
    obtain ⟨uses, h⟩ := ih
    have written : assignmentStart cell.name v (standsAlone isStatement parent) ++ before ++
        src.text copied ++ (after ++ assignmentEnd cell.name v (standsAlone isStatement parent)) =
        assignment cell.name (v.text cell.name (before ++ src.text copied ++ after))
          (standsAlone isStatement parent) := by
      rw [assignment_eq]
      simp only [String.append_assoc]
    rw [written]
    exact ⟨uses, .assigns hcall hargument hvalue h⟩
  | inner hcall hfate hinner _ ih =>
    obtain ⟨uses, h⟩ := ih
    exact ⟨uses, .inner hcall hfate hinner h⟩
  | @child _ _ _ c copied cursor _ before after tail _ _ hrest ih =>
    obtain ⟨uses, h⟩ := ih
    have written : src.slice cursor c.start ++ before ++ src.text copied ++ (after ++ tail) =
        src.slice cursor c.start ++ (before ++ src.text copied ++ after) ++ tail := by
      simp only [String.append_assoc]
    rw [written]
    exact ⟨_, .next h hrest⟩
  | @later _ _ _ c copied cursor _ text before after _ hchild _ ih =>
    obtain ⟨uses, h⟩ := ih
    have written : src.slice cursor c.start ++ text ++ before ++ src.text copied ++ after =
        src.slice cursor c.start ++ text ++ (before ++ src.text copied ++ after) := by
      simp only [String.append_assoc]
    rw [written]
    exact ⟨_, .next hchild h⟩

/-- The nodes of a part that are still to be written. -/
def Part.nodes : Part → List Node
  | .node _ n => [n]
  | .rest _ _ children => children

theorem newValue_mem_preorder {cell : String} {subs : Substitution} {argument : Node} {v : NewValue}
    (h : newValue? src cell subs argument = some v) : v.node ∈ argument.preorder := by
  obtain ⟨inner, hinner, rfl⟩ := Option.map_eq_some_iff.1 h
  split
  · rcases @updatedValue_node src cell subs inner with heq | hbody
    · rw [heq]
      exact bare_mem_preorder hinner
    · exact preorder_trans (field_mem_preorder hbody (mem_preorder_self inner))
        (bare_mem_preorder hinner)
  · exact mem_preorder_self argument

/-- What is copied is below a node of the part. -/
theorem Copies.mem_preorder {subs : Substitution} {isStatement : Bool} {part : Part} {copied : Node}
    {before after : String} (h : Copies src model subs isStatement part copied before after) :
    ∃ n ∈ part.nodes, copied ∈ n.preorder := by
  induction h with
  | @self _ _ _ n _ _ => exact ⟨n, List.mem_cons_self, mem_preorder_self n⟩
  | @assigned _ _ _ n _ _ _ v _ _ _ hargument hvalue _ ih =>
    obtain ⟨m, hm, hcopied⟩ := ih
    obtain rfl := List.mem_singleton.1 hm
    exact ⟨n, List.mem_cons_self, preorder_trans (preorder_trans hcopied
      (newValue_mem_preorder hvalue)) (argumentOf_mem_preorder (List.mem_of_head? hargument))⟩
  | @inner _ _ _ n _ _ _ _ _ _ _ ih =>
    obtain ⟨c, hc, hcopied⟩ := ih
    exact ⟨n, List.mem_cons_self,
      preorder_trans hcopied (child_mem_preorder hc (mem_preorder_self n))⟩
  | child _ _ ih =>
    obtain ⟨m, hm, hcopied⟩ := ih
    obtain rfl := List.mem_singleton.1 hm
    exact ⟨m, List.mem_cons_self, hcopied⟩
  | later _ _ ih =>
    obtain ⟨m, hm, hcopied⟩ := ih
    exact ⟨m, List.mem_cons_of_mem _ hm, hcopied⟩

/-! ### The lines of a literal -/

/-- The number of line feeds in a text. -/
def lineFeeds (s : String) : Nat := s.toList.count '\n'

/-- What stands behind line `i` of a text, given what follows the text: it goes on behind the last
line. -/
def behindLine (s after : String) (i : Nat) : String :=
  if i = lineFeeds s then String.ofList (after.toList.takeWhile (· != '\n')) else ""

theorem le_lineFeeds {s line : String} {i : Nat} (h : (lines s)[i]? = some line) :
    i ≤ lineFeeds s := by
  have := (List.getElem?_eq_some_iff.1 h).1
  rw [lines, parts, List.length_map, length_splitOn] at this
  exact Nat.le_of_lt_succ this

/-- A later line of a text that stands between two others. -/
theorem getElem?_lines_between (before s after : String) {i : Nat} {line : String}
    (h : (lines s)[i + 1]? = some line) :
    (lines (before ++ s ++ after))[lineFeeds before + (i + 1)]? =
      some (line ++ behindLine s after (i + 1)) := by
  have within := le_lineFeeds h
  rw [lines, parts, List.getElem?_map, Option.map_eq_some_iff] at h
  obtain ⟨cs, hcs, rfl⟩ := h
  have below : (lines (before ++ s ++ after))[lineFeeds before + (i + 1)]? =
      (splitOn '\n' (s.toList ++ after.toList))[i + 1]?.map String.ofList := by
    rw [String.append_assoc, lines, parts, List.getElem?_map, String.toList_append,
      String.toList_append, lineFeeds, getElem?_splitOn_append]
  -- Only the last line of the text meets what follows it.
  rw [below, behindLine]
  by_cases hlast : i + 1 = lineFeeds s
  · rw [if_pos hlast, hlast, lineFeeds, getElem?_splitOn_seam]
    rw [hlast, lineFeeds] at hcs
    rw [hcs, ← String.ofList_append]
    rfl
  · rw [if_neg hlast, getElem?_splitOn_left (Nat.lt_of_le_of_ne within hlast), hcs,
      String.append_empty]
    rfl

/-- A literal protects the lines that it has behind its first. -/
theorem isProtected_of_literal {n literal : Node} (hliteral : literal ∈ n.preorder)
    (hkind : literal.kind = "template_string") {offset i : Nat}
    (hi : i + 1 ≤ lineFeeds (src.text literal))
    (hoffset : (src.startOf n).line + offset = (src.startOf literal).line) :
    isProtected src n (offset + (i + 1)) = true := by
  refine List.any_eq_true.2 ⟨literal, hliteral, ?_⟩
  -- The lines of the text are counted in characters, those of the source in octets.
  have few := src.count_slice_le literal.start literal.stop
  have later : offset + (i + 1) + (src.startOf n).line ∈ (src.locate literal).laterLines := by
    refine List.mem_range'_1.2 ?_
    show (src.startOf literal).line + 1 ≤ _ ∧ _ < (src.startOf literal).line + 1 +
      ((src.position literal.stop).line - (src.position literal.start).line)
    rw [lineFeeds, Source.text] at hi
    omega
  simpa [hkind] using later

/-- **Literals.** Let a conversion copy a template literal behind a text. Each line that the literal
has behind its first is a line of the result, as many lines below the text in front of it, and what
follows the literal goes on behind the last of them. The line keeps the blanks at its start just if
it comes to stand where the source has a later line of some literal, or if it is flush. If the
literal is as many lines below the start of the text as it is in the source, its lines are kept as
they are. -/
theorem literal_lines {n literal : Node} (hkind : literal.kind = "template_string")
    {isStatement : Bool} {before after : String}
    (hcopied : Copies src model [] isStatement (.node none n) literal before after) :
    ∃ uses ls, Adds (convertLines src model isStatement n) uses (.ok ls) ∧
      ∀ i line, (lines (src.text literal))[i + 1]? = some line →
        ∃ shown, ls[lineFeeds before + (i + 1)]? = some shown ∧
          (leading shown = leading (line ++ behindLine (src.text literal) after (i + 1)) ↔
            isProtected src n (lineFeeds before + (i + 1)) = true ∨
              IsFlush src n (line ++ behindLine (src.text literal) after (i + 1))) ∧
          ((src.startOf n).line + lineFeeds before = (src.startOf literal).line →
            shown = line ++ behindLine (src.text literal) after (i + 1)) := by
  obtain ⟨uses, hwrites⟩ := hcopied.writes
  obtain ⟨m, hm, hliteral⟩ := hcopied.mem_preorder
  obtain rfl := List.mem_singleton.1 hm
  refine ⟨uses, _, convertLines_of_writes hwrites, fun i line hline => ?_⟩
  have hshown := getElem?_lines_between before (src.text literal) after hline
  refine ⟨_, ?_, leading_outdentLine_iff m _ _, fun hoffset => ?_⟩
  · rw [← Nat.add_assoc, getElem?_outdent, Nat.add_assoc, hshown]
    rfl
  · exact if_pos (isProtected_of_literal hliteral hkind (le_lineFeeds hline) hoffset)

/-! ### A literal that is the new value of a cell -/

section Sample

/-- A component that sets a cell to a literal of two lines, with some text in front of the
literal. -/
def literalModule (gap : String) : Module :=
  let start := 98 + gap.length
  sampleModule ("\n  setX(" ++ gap ++ "`a\n    b`);") <|
    plain "expression_statement" 93 (start + 11) [plain "call_expression" 93 (start + 10)
      [plain "identifier" 93 97 [] (some "function"),
       plain "arguments" 97 (start + 10) [plain "template_string" start (start + 9) []]
        (some "arguments")]]

/-- On the line of the call, the literal keeps its second line. -/
theorem literal_lines_of_call : ∃ model reports call uses ls,
    analyze (literalModule "") {} [] = .ok model reports ∧ call ∈ model.node.preorder ∧
    Adds (convertLines (literalModule "").source model true call) uses (.ok ls) ∧
    ls[1]? = some "    b`" := by
  let src := (literalModule "").source
  have test : endsIn (analyze (literalModule "") {}) [] (fun model _ =>
      model.node.preorder.any fun call => (setterCall? model call).any fun cell =>
        (Hook.argumentsOf call).head?.any fun argument =>
          (newValue? src cell.name [] argument).any fun v =>
            decide (cell.name = "x" ∧ v.substitution = [] ∧ v.isApplied = false ∧
              v.node.kind = "template_string" ∧ v.node.children = [] ∧
              setterCall? model v.node = none ∧ Unreplaced src model v.node ∧
              (lines (src.text v.node))[1]? = some "    b`" ∧
              (src.startOf call).line = (src.startOf v.node).line)) = true := by
    decide +kernel
  obtain ⟨model, reports, hmodel, hany⟩ := exists_ok_of_endsIn test
  obtain ⟨call, hcall, hany⟩ := List.any_eq_true.1 hany
  obtain ⟨cell, hcell, hany⟩ := (Option.any_eq_true _ _).1 hany
  obtain ⟨argument, hargument, hany⟩ := (Option.any_eq_true _ _).1 hany
  obtain ⟨v, hvalue, hchecked⟩ := (Option.any_eq_true _ _).1 hany
  obtain ⟨hname, hsubs, happlied, hkind, hleaf, hnone, hplain, hline, hstart⟩ :=
    of_decide_eq_true hchecked
  have unchanged : substitute? src [] v.node = none := by
    simp [substitute?]
  have written : Writes src model v.substitution false (.node none v.node) []
      (.ok (src.text v.node)) := by
    rw [hsubs]
    exact .leaf hnone (unchanged ▸ .other hplain) hleaf
  have hcopied : Copies src model [] true (.node none call) v.node
      (assignmentStart cell.name v true ++ "") ("" ++ assignmentEnd cell.name v true) :=
    .assigned hcell hargument hvalue (.self written)
  have front : assignmentStart cell.name v true ++ "" = "x = " := by
    simp [assignmentStart, hname, happlied]
  have back : "" ++ assignmentEnd cell.name v true = "" := by
    simp [assignmentEnd, happlied]
  rw [front, back] at hcopied
  obtain ⟨uses, ls, hrun, hlines⟩ := literal_lines hkind hcopied
  obtain ⟨shown, hshown, -, hkept⟩ := hlines 0 _ hline
  have kept : shown = "    b`" := by
    rw [hkept hstart]
    simp [behindLine]
  exact ⟨model, reports, call, uses, ls, hmodel, hcall, hrun, kept ▸ hshown⟩

/-- On a line of its own, it comes to stand on the line of the call, and its second line is moved to
the left. -/
theorem literal_line_moved : ∃ model reports call, ∃ literal ∈ call.preorder,
    analyze (literalModule "\n    ") {} [] = .ok model reports ∧ call ∈ model.node.preorder ∧
    literal.kind = "template_string" ∧
    (literalModule "\n    ").source.text literal = "`a\n    b`" ∧
    endsIn (convertLines (literalModule "\n    ").source model true call) {}
      (fun ls _ => ls == ["x = `a", "  b`"]) = true := by
  let src := (literalModule "\n    ").source
  have test : endsIn (analyze (literalModule "\n    ") {}) [] (fun model _ =>
      model.node.preorder.any fun call => decide (∃ literal ∈ call.preorder,
        literal.kind = "template_string" ∧ src.text literal = "`a\n    b`" ∧
        endsIn (convertLines src model true call) {}
          (fun ls _ => ls == ["x = `a", "  b`"]) = true)) = true := by
    decide +kernel
  obtain ⟨model, reports, hmodel, hany⟩ := exists_ok_of_endsIn test
  obtain ⟨call, hcall, hchecked⟩ := List.any_eq_true.1 hany
  obtain ⟨literal, hliteral, hkind, htext, hlines⟩ := of_decide_eq_true hchecked
  exact ⟨model, reports, call, literal, hliteral, hmodel, hcall, hkind, htext, hlines⟩

end Sample

end Sveltify.Expression
