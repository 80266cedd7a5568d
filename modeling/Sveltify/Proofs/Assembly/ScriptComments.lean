import Sveltify.Assembly.Progress
import Sveltify.Proofs.Expression.Literals
import Sveltify.Proofs.Svelte.Indentation

namespace Sveltify

open Text

/-!
# Placeholders in scripts

In a script a placeholder is a row of comments, each of which reaches to the end of its line. The
source that it keeps is cut at line feeds, while a script has three more characters that end a line
and a comment with it.

* `isBreak`, `rows`: the characters that end a line of a script, and its lines;
* `IsComment`, `IsInert`: a line without code, and a text of such lines;
* `Placeholder.isInert_iff`: what the lines of a placeholder in print depend on;
* `exists_line_of_mem_outdent`: the lines that a placeholder keeps are parts of lines of the source;
* `script_comments_inert_iff`: when the placeholder for a node is without code.
-/

namespace Svelte

/-! ### Lines of a script -/

/-- Does the character end a line of a script? These are the line feed, the carriage return, and the
line and paragraph separators. -/
def isBreak (c : Char) : Bool := c == '\n' || c == '\r' || c == '\u2028' || c == '\u2029'

/-- Does the text hold such a character? -/
def hasBreak (s : String) : Bool := s.toList.any isBreak

/-- The lines of a text, as a reader of scripts takes them. -/
def rows (s : String) : List (List Char) := s.toList.splitOnP isBreak

/-- The line is empty, or there is a comment behind its indentation. -/
def IsComment (row : List Char) : Prop := row = [] ∨ "//".toList <+: row.dropWhile isIndent

instance (row : List Char) : Decidable (IsComment row) := inferInstanceAs (Decidable (_ ∨ _))

/-- No line of the text has code in it. -/
def IsInert (s : String) : Prop := ∀ row ∈ rows s, IsComment row

instance (s : String) : Decidable (IsInert s) :=
  inferInstanceAs (Decidable (∀ row ∈ rows s, IsComment row))

theorem hasBreak_append (s t : String) : hasBreak (s ++ t) = (hasBreak s || hasBreak t) := by
  rw [hasBreak, String.toList_append, List.any_append]
  rfl

/-- Text without breaks is one row. -/
theorem rows_of_hasBreak {s : String} (h : hasBreak s = false) : rows s = [s.toList] :=
  List.splitOnP_eq_singleton fun c hc => Bool.eq_false_iff.2 (List.any_eq_false.1 h c hc)

/-- A text without breaks belongs to the first line of what follows it. -/
theorem exists_rows_append {start : String} (h : hasBreak start = false) (s : String) :
    ∃ first rest, rows s = first :: rest ∧ rows (start ++ s) = (start.toList ++ first) :: rest := by
  rw [hasBreak, List.any_eq_false] at h
  rw [rows, rows, String.toList_append]
  generalize start.toList = xs at h
  induction xs with
  | nil =>
    obtain ⟨first, rest, hrows⟩ :=
      List.exists_cons_of_ne_nil (List.splitOnP_ne_nil isBreak s.toList)
    exact ⟨first, rest, hrows, hrows⟩
  | cons x xs ih =>
    obtain ⟨hx, hxs⟩ := List.forall_mem_cons.1 h
    obtain ⟨first, rest, hrows, happend⟩ := ih hxs
    refine ⟨first, rest, hrows, ?_⟩
    rw [List.cons_append, List.splitOnP_cons_eq_if_modifyHead, if_neg hx, happend,
      List.modifyHead_cons, List.cons_append]

/-- A start without breaks changes only the first row. -/
theorem tail_rows_append {start : String} (h : hasBreak start = false) (s : String) :
    (rows (start ++ s)).tail = (rows s).tail := by
  obtain ⟨first, rest, hrows, happend⟩ := exists_rows_append h s
  rw [hrows, happend, List.tail_cons, List.tail_cons]

/-- Behind a break at the end of a text there is nothing. -/
theorem eq_nil_of_mem_tail_rows {s : String} (h : s.toList.dropLast.any isBreak = false)
    {row : List Char} (hrow : row ∈ (rows s).tail) : row = [] := by
  rw [rows] at hrow
  -- Only the last character may break the line, and nothing comes after it.
  rcases List.eq_nil_or_concat s.toList with hs | ⟨front, last, hs⟩
  · rw [hs] at hrow
    cases hrow
  · rw [hs, List.concat_eq_append] at h hrow
    rw [List.dropLast_concat, List.any_eq_false] at h
    have hfront : front.splitOnP isBreak = [front] :=
      List.splitOnP_eq_singleton fun c hc => Bool.eq_false_iff.2 (h c hc)
    by_cases hlast : isBreak last = true
    · rw [List.splitOnP_append_cons _ _ hlast, hfront] at hrow
      exact List.mem_singleton.1 hrow
    · have hall : (front ++ [last]).splitOnP isBreak = [front ++ [last]] := by
        refine List.splitOnP_eq_singleton fun c hc => Bool.eq_false_iff.2 ?_
        rcases List.mem_append.1 hc with hc | hc
        · exact h c hc
        · rwa [List.mem_singleton.1 hc]
      rw [hall] at hrow
      cases hrow

/-- Lines that are joined have the lines that each of them has. -/
theorem isInert_unlines_iff {ls : List String} (hne : ls ≠ []) :
    IsInert (unlines ls) ↔ ∀ l ∈ ls, IsInert l := by
  induction ls with
  | nil => exact absurd rfl hne
  | cons l ls ih =>
    cases ls with
    | nil => simp [unlines]
    | cons l' ls =>
      have joined : rows (unlines (l :: l' :: ls)) = rows l ++ rows (unlines (l' :: ls)) := by
        rw [rows, unlines_cons_cons, String.toList_append, String.toList_append, List.append_assoc]
        exact List.splitOnP_append_cons _ _ rfl
      rw [IsInert, joined, List.forall_mem_append, List.forall_mem_cons]
      exact and_congr_right fun _ => ih (List.cons_ne_nil _ _)

/-! ### Comments in print -/

/-- Spaces hold no break. -/
theorem hasBreak_spaces (width : Nat) : hasBreak (spaces width) = false := by
  rw [hasBreak, toList_spaces, List.any_replicate]
  split <;> rfl

/-- A text behind two strokes: its first line is in a comment, and the others are as they are. -/
theorem isInert_padLine_iff (width : Nat) (s : String) :
    IsInert (padLine (spaces width) ("//" ++ s)) ↔ ∀ row ∈ (rows s).tail, IsComment row := by
  have hfront : hasBreak (spaces width ++ "//") = false := by
    rw [hasBreak_append, hasBreak_spaces]
    rfl
  obtain ⟨first, rest, hrows, happend⟩ := exists_rows_append hfront s
  have hfirst : IsComment ((spaces width ++ "//").toList ++ first) := by
    have hindent : ∀ c ∈ List.replicate width ' ', isIndent c = true := fun c hc => by
      rw [List.eq_of_mem_replicate hc]
      rfl
    right
    rw [String.toList_append, toList_spaces, List.append_assoc,
      List.dropWhile_append_of_pos hindent]
    exact List.prefix_append _ _
  have hline : padLine (spaces width) ("//" ++ s) = spaces width ++ "//" ++ s := by
    rw [padLine, if_neg (by simp), String.append_assoc]
  rw [hline, IsInert, happend, hrows, List.forall_mem_cons, List.tail_cons]
  exact and_iff_right hfirst

/-- A placeholder in print has code in it only behind a break inside a line of its source. -/
theorem Placeholder.isInert_iff {p : Placeholder} (hmarker : hasBreak p.marker = false)
    (hreason : hasBreak p.reason = false) (width : Nat) :
    IsInert (unlines (padLines (spaces width) p.scriptLines)) ↔
      ∀ line ∈ lines p.source, ∀ row ∈ (rows line).tail, IsComment row := by
  -- The first line is one row, as its parts have no breaks.
  have hhead : IsInert (padLine (spaces width) ("// " ++ p.marker ++ ": " ++ p.reason)) := by
    have hparts : "// " ++ p.marker ++ ": " ++ p.reason =
        "//" ++ (" " ++ p.marker ++ ": " ++ p.reason) := by
      simp [← String.toList_inj]
    have hbreak : hasBreak (" " ++ p.marker ++ ": " ++ p.reason) = false := by
      simp only [hasBreak_append, hmarker, hreason]
      rfl
    rw [hparts, isInert_padLine_iff, rows_of_hasBreak hbreak]
    exact fun _ hrow => by cases hrow
  -- The other lines are comments up to their first break.
  have hline (line : String) : IsInert (padLine (spaces width)
      (if line.isEmpty then "//" else "// " ++ line)) ↔
        ∀ row ∈ (rows line).tail, IsComment row := by
    by_cases hempty : line.isEmpty = true
    · rw [if_pos hempty, String.isEmpty_iff.1 hempty, ← isInert_padLine_iff, String.append_empty]
    · have hparts : "// " ++ line = "//" ++ (" " ++ line) := by simp [← String.toList_inj]
      rw [if_neg hempty, hparts, isInert_padLine_iff, tail_rows_append rfl]
  rw [isInert_unlines_iff (by simp [padLines, scriptLines]), padLines, List.forall_mem_map,
    scriptLines, List.forall_mem_cons, List.forall_mem_map]
  exact (and_iff_right hhead).trans (forall₂_congr fun line _ => hline line)

end Svelte

namespace Text

/-! ### Lines and their parts -/

theorem mem_dropLast_of_isInfix {xs ys : List Char} (h : xs <:+: ys) {c : Char}
    (hc : c ∈ xs.dropLast) : c ∈ ys.dropLast := by
  obtain ⟨before, after, rfl⟩ := h
  rcases List.eq_nil_or_concat xs with rfl | ⟨front, last, rfl⟩
  · cases hc
  · rw [List.concat_eq_append] at hc ⊢
    rw [List.dropLast_concat] at hc
    rw [List.append_assoc, List.append_assoc, ← List.append_assoc before,
      List.dropLast_append_of_ne_nil (by simp)]
    simp [hc]

theorem not_mem_of_mem_splitOn {sep : Char} {cs part : List Char}
    (h : part ∈ splitOn sep cs) : sep ∉ part := by
  induction cs generalizing part with
  | nil =>
    rw [List.mem_singleton.1 h]
    exact List.not_mem_nil
  | cons c cs ih =>
    by_cases hc : c = sep
    · subst hc
      rw [splitOn_cons_sep] at h
      rcases List.mem_cons.1 h with rfl | h
      · exact List.not_mem_nil
      · exact ih h
    · obtain ⟨first, rest, hparts, hcons⟩ := exists_splitOn_cons hc cs
      rw [hcons] at h
      rcases List.mem_cons.1 h with rfl | h
      · simp [Ne.symm hc, ih (hparts ▸ List.mem_cons_self)]
      · exact ih (hparts ▸ List.mem_cons_of_mem _ h)

theorem not_mem_of_mem_lines {text line : String} (h : line ∈ lines text) :
    '\n' ∉ line.toList := by
  obtain ⟨part, hpart, rfl⟩ := List.mem_map.1 h
  rw [String.toList_ofList]
  exact not_mem_of_mem_splitOn hpart

/-- Lines without line feeds are the lines of the text that they are joined to. -/
theorem lines_unlines {ls : List String} (hne : ls ≠ []) (h : ∀ l ∈ ls, '\n' ∉ l.toList) :
    lines (unlines ls) = ls := by
  induction ls with
  | nil => exact absurd rfl hne
  | cons l ls ih =>
    obtain ⟨hl, hls⟩ := List.forall_mem_cons.1 h
    have single : lines l = [l] := by
      rw [lines, parts, splitOn_of_not_mem hl, List.map_singleton, String.ofList_toList]
    cases ls with
    | nil => rwa [unlines, String.intercalate_singleton]
    | cons l' ls =>
      rw [Svelte.unlines_cons_cons, Svelte.lines_append, single, ih (List.cons_ne_nil _ _) hls,
        List.singleton_append]

end Text

namespace Expression

variable {src : Source}

/-! ### The lines that are kept -/

/-- Trimming keeps the start. -/
theorem stripEnd_isPrefix (s : String) : (stripEnd s).toList <+: s.toList := by
  rw [stripEnd, stripEndOf, String.toList_ofList, dropEndWhile, ← List.reverse_suffix,
    List.reverse_reverse]
  exact List.dropWhile_suffix _

/-- A line that is moved to the left margin is part of the line. -/
theorem outdentLine_isInfix (n : Node) (offset : Nat) (line : String) :
    (outdentLine src n offset line).toList <:+: line.toList := by
  unfold outdentLine
  split
  · exact List.infix_rfl
  · obtain ⟨indent, hindent, -⟩ := exists_indent (lineIndent src n) line.toList
    refine (stripEnd_isPrefix _).isInfix.trans ?_
    rw [String.toList_ofList]
    exact List.IsSuffix.isInfix ⟨indent, hindent.symm⟩

/-- The lines of a text that is moved to the left margin are parts of its lines. -/
theorem exists_line_of_mem_outdent {text l : String} {n : Node} (h : l ∈ outdent src text n) :
    ∃ line ∈ lines text, l.toList <:+: line.toList := by
  unfold outdent at h
  split at h
  · rename_i first second rest hlines
    rw [hlines]
    rcases List.mem_cons.1 h with rfl | h
    · exact ⟨first, List.mem_cons_self, (stripEnd_isPrefix first).isInfix⟩
    · obtain ⟨i, hi, rfl⟩ := List.mem_mapIdx.1 h
      exact ⟨_, List.mem_cons_of_mem _ (List.getElem_mem hi), outdentLine_isInfix n (i + 1) _⟩
  · exact ⟨l, h, List.infix_rfl⟩

/-- There is always a line. -/
theorem outdent_ne_nil (text : String) (n : Node) : outdent src text n ≠ [] := by
  unfold outdent
  split
  · exact List.cons_ne_nil _ _
  · exact Svelte.lines_ne_nil text

/-- The lines of outdented text. -/
theorem lines_outdented (text : String) (n : Node) :
    lines (outdented src text n) = outdent src text n := by
  refine lines_unlines (outdent_ne_nil text n) fun l hl => ?_
  obtain ⟨line, hline, hpart⟩ := exists_line_of_mem_outdent hl
  exact fun hfeed => not_mem_of_mem_lines hline (hpart.subset hfeed)

end Expression

namespace Assembly

open Expression Svelte

/-! ### Placeholders for nodes -/

/-- The mark of a diagnostic is made of letters, digits and signs. -/
theorem hasBreak_todo (id : Nat) : hasBreak (todo id) = false := by
  have hdigits : hasBreak id.repr = false := by
    rw [hasBreak, Nat.toList_repr, List.any_eq_false]
    intro c hc hbreak
    have hdigit := Nat.isDigit_of_mem_toDigits (by decide) (by decide) hc
    simp only [isBreak, Bool.or_eq_true, beq_iff_eq] at hbreak
    rcases hbreak with ((rfl | rfl) | rfl) | rfl <;> exact absurd hdigit (by decide)
  have parts : todo id = "TODO(" ++ ("r2s#" ++ id.repr) ++ ")" := rfl
  rw [parts, hasBreak_append, hasBreak_append, hasBreak_append, hdigits]
  rfl

section

variable (src : Source) (n : Node) (reason before : String)

/-- The placeholder for a node that is left behind as the one with number `id`. -/
def placeholderFor (id : Nat) : Placeholder where
  marker := todo id
  reason := reason
  source := outdented src (before ++ src.text n) n

/-- A placeholder is numbered by the reports. -/
theorem leave_eq (construct : Option String) (p : Progress) :
    ∃ p', leave src n reason construct before p =
      .ok (placeholderFor src n reason before (p.reports.length + 1)) p' := by
  refine ⟨{ p with reports := p.reports ++ [leftBehind src n reason construct] }, ?_⟩
  have hlength : (p.reports ++ [leftBehind src n reason construct]).length =
      p.reports.length + 1 := List.length_append
  rw [← hlength]
  rfl

variable {reason}

/-- A placeholder is inert if none of its lines breaks. -/
theorem isInert_placeholderFor_iff (hreason : hasBreak reason = false) (id width : Nat) :
    IsInert
        (unlines (padLines (spaces width) (placeholderFor src n reason before id).scriptLines)) ↔
      ∀ line ∈ outdent src (before ++ src.text n) n, ∀ row ∈ (rows line).tail, IsComment row := by
  have hinert := Placeholder.isInert_iff (p := placeholderFor src n reason before id)
    (hasBreak_todo id) hreason width
  have hlines : lines (placeholderFor src n reason before id).source =
      outdent src (before ++ src.text n) n := lines_outdented _ n
  rwa [hlines] at hinert

/-- Where breaks stand at the ends of lines only, they do so in the lines that are kept. -/
theorem isComment_of_mem_outdent {text : String}
    (h : ∀ line ∈ lines text, line.toList.dropLast.any isBreak = false) :
    ∀ line ∈ outdent src text n, ∀ row ∈ (rows line).tail, IsComment row := by
  intro line hline row hrow
  obtain ⟨whole, hwhole, hpart⟩ := exists_line_of_mem_outdent hline
  have hinside := List.any_eq_false.1 (h whole hwhole)
  have hends : line.toList.dropLast.any isBreak = false :=
    List.any_eq_false.2 fun c hc => hinside c (mem_dropLast_of_isInfix hpart hc)
  exact .inl (eq_nil_of_mem_tail_rows hends hrow)

end

/-- **Script placeholders.** For every node, a placeholder with a reason that is one line has code
in it just if there is some behind a carriage return, a line separator or a paragraph separator
inside one of the lines that it keeps. There is none if these characters stand at the ends of lines
only, as in a source whose lines end in a carriage return and a line feed. -/
theorem script_comments_inert_iff (src : Source) (n : Node) {reason : String}
    (hreason : hasBreak reason = false) (construct : Option String) (before : String) (width : Nat)
    (p : Progress) :
    ∃ left p', leave src n reason construct before p = .ok left p' ∧
      (IsInert (unlines (padLines (spaces width) left.scriptLines)) ↔
        ∀ line ∈ outdent src (before ++ src.text n) n, ∀ row ∈ (rows line).tail, IsComment row) ∧
      ((∀ line ∈ lines (before ++ src.text n), line.toList.dropLast.any isBreak = false) →
        IsInert (unlines (padLines (spaces width) left.scriptLines))) := by
  obtain ⟨p', hleft⟩ := leave_eq src n reason before construct p
  have hinert := isInert_placeholderFor_iff src n before hreason (p.reports.length + 1) width
  exact ⟨_, p', hleft, hinert, fun hends => hinert.2 (isComment_of_mem_outdent src n hends)⟩

section Sample

open Node

/-- A call in a source whose lines end in two characters. -/
theorem script_comments_inert_of_call : ∃ left p',
    leave (.ofText "App.jsx" "use(\r\n  data\r\n);") (plain "expression_statement" 0 16 [])
      "use has no Svelte 5 equivalent" (some "use") "" {} = .ok left p' ∧
    left.source = "use(\n  data\n);" ∧
    IsInert (unlines (padLines (spaces 2) left.scriptLines)) := by
  obtain ⟨left, p', hleft, -, hinert⟩ := script_comments_inert_iff
    (.ofText "App.jsx" "use(\r\n  data\r\n);") (plain "expression_statement" 0 16 [])
    (show hasBreak "use has no Svelte 5 equivalent" = false by decide +kernel) (some "use") "" 2 {}
  refine ⟨left, p', hleft, ?_, hinert (by decide +kernel)⟩
  cases hleft
  decide +kernel

/-- A declaration with a line separator in a string. -/
def deferredText : String := "const text = useDeferredValue('a\u2028b()');"

/-- The declarator of the name in it. -/
def deferredNode : Node :=
  plain "variable_declarator" 6 40
    [plain "identifier" 6 10 [] (some "name"),
     plain "call_expression" 13 40
      [plain "identifier" 13 29 [] (some "function"),
       plain "arguments" 29 40 [plain "string" 30 39 []] (some "arguments")] (some "value")]

/-- What stands behind the separator in the string is a line of code in the placeholder. -/
theorem script_comment_broken : hasBreak "useDeferredValue has no Svelte 5 equivalent" = false ∧
    ∃ left p', leave (.ofText "App.jsx" deferredText) deferredNode
        "useDeferredValue has no Svelte 5 equivalent" (some "useDeferredValue") "const " {} =
          .ok left p' ∧
      ¬ IsInert (unlines (padLines (spaces 2) left.scriptLines)) := by
  have hreason : hasBreak "useDeferredValue has no Svelte 5 equivalent" = false := by decide +kernel
  obtain ⟨p', hleft⟩ := leave_eq (.ofText "App.jsx" deferredText) deferredNode
    "useDeferredValue has no Svelte 5 equivalent" "const " (some "useDeferredValue") {}
  refine ⟨hreason, _, p', hleft, ?_⟩
  rw [isInert_placeholderFor_iff _ _ _ hreason]
  decide +kernel

end Sample

end Assembly

end Sveltify
