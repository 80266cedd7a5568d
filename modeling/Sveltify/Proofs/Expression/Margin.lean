import Sveltify.Proofs.Expression.Literals

namespace Sveltify.Expression

open Text

/-!
# What moving text to the left margin takes off

Text that is moved to the left margin loses indentation and blanks at the ends of its lines, and
nothing else.

* `indentation`: the number of spaces and tabs at the start of a line;
* `Trims`: a line without some characters at its start and without the blanks at its end;
* `IsTemplateLine`: the lines that are kept as they are;
* `letters`: the characters of a text that are no blanks;
* `IsOutdented`: what is taken off a text, line by line, and what stays the same;
* `isOutdented_outdent`: this holds of any text and node.
-/

variable {src : Source}

/-! ### Single lines -/

/-- The number of spaces and tabs at the start of a line. -/
def indentation (line : String) : Nat := (line.toList.takeWhile isIndent).length

/-- The characters of a text that are no blanks. -/
def letters (s : String) : List Char := s.toList.filter (!isBlank ·)

/-- `rest` is the line without its first `width` characters and without the blanks at its end. -/
structure Trims (width : Nat) (line rest : String) : Prop where
  parts : ∃ front tail, line.toList = front ++ rest.toList ++ tail ∧ front.length = width ∧
    ∀ c ∈ tail, isBlank c = true
  last : ∀ c, rest.toList.getLast? = some c → isBlank c = false

/-- A line is made up of what is left without the blanks at its end, and these. -/
theorem exists_blank_end (cs : List Char) : ∃ tail, cs = dropEndWhile isBlank cs ++ tail ∧
    (∀ c ∈ tail, isBlank c = true) ∧
    ∀ c, (dropEndWhile isBlank cs).getLast? = some c → isBlank c = false := by
  -- The blanks at the end are those at the start of the text read backwards.
  refine ⟨(cs.reverse.takeWhile isBlank).reverse, ?_, fun c hc => ?_, fun c hc => ?_⟩
  · rw [dropEndWhile, ← List.reverse_append, List.takeWhile_append_dropWhile, List.reverse_reverse]
  · exact List.all_eq_true.1 List.all_takeWhile c (List.mem_reverse.1 hc)
  · rw [dropEndWhile, List.getLast?_reverse] at hc
    have := List.head?_dropWhile_not isBlank cs.reverse
    rwa [hc] at this

/-- A line loses its indent and the blanks at its end. -/
theorem trims_stripEnd {width : Nat} {line : String} (h : width ≤ line.toList.length) :
    Trims width line (stripEnd (String.ofList (line.toList.drop width))) := by
  obtain ⟨tail, hparts, htail, hlast⟩ := exists_blank_end (line.toList.drop width)
  have rest : (stripEnd (String.ofList (line.toList.drop width))).toList =
      dropEndWhile isBlank (line.toList.drop width) := by
    rw [stripEnd, stripEndOf, String.toList_ofList, String.toList_ofList]
  refine ⟨⟨line.toList.take width, tail, ?_, List.length_take_of_le h, htail⟩, by rwa [rest]⟩
  rw [rest, List.append_assoc, ← hparts, List.take_append_drop]

theorem trims_stripEnd_zero (line : String) : Trims 0 line (stripEnd line) := by
  have trims := trims_stripEnd (Nat.zero_le line.toList.length)
  rwa [List.drop_zero, String.ofList_toList] at trims

/-- Taking off indentation up to some width. -/
theorem dropIndent_eq_drop (width : Nat) (cs : List Char) :
    dropIndent width cs = cs.drop (min width (cs.takeWhile isIndent).length) := by
  induction cs generalizing width with
  | nil => cases width <;> simp [dropIndent]
  | cons c cs ih =>
    cases width with
    | zero => simp [dropIndent]
    | succ width =>
      rw [dropIndent]
      by_cases hc : isIndent c = true
      · rw [if_pos hc, ih, List.takeWhile_cons_of_pos hc, List.length_cons,
          Nat.succ_min_succ, List.drop_succ_cons]
      · rw [if_neg hc, List.takeWhile_cons_of_neg hc, List.length_nil, Nat.min_zero,
          List.drop_zero]

/-- The characters that are taken off at the start are spaces and tabs. -/
theorem isIndent_of_front {cs front rest : List Char} (hparts : cs = front ++ rest)
    (hlength : front.length ≤ (cs.takeWhile isIndent).length) : ∀ c ∈ front, isIndent c = true := by
  intro c hc
  have among : front <+: cs.takeWhile isIndent :=
    List.prefix_of_prefix_length_le ⟨rest, hparts.symm⟩ (List.takeWhile_prefix isIndent) hlength
  exact List.all_eq_true.1 List.all_takeWhile c (among.subset hc)

namespace Trims

variable {width : Nat} {line rest : String}

/-- Only blanks are taken off if no more than the indentation is. -/
theorem letters_eq (h : Trims width line rest) (hwidth : width ≤ indentation line) :
    letters rest = letters line := by
  obtain ⟨front, tail, hparts, hlength, htail⟩ := h.parts
  have hfront := isIndent_of_front (hparts.trans (List.append_assoc _ _ _)) (hlength ▸ hwidth)
  have none (cs : List Char) (hcs : ∀ c ∈ cs, isBlank c = true) : cs.filter (!isBlank ·) = [] :=
    List.filter_eq_nil_iff.2 fun c hc => by simp [hcs c hc]
  rw [letters, letters, hparts, List.filter_append, List.filter_append, none tail htail,
    none front fun c hc => isBlank_of_isIndent (hfront c hc), List.nil_append, List.append_nil]

/-- A line that is not blank throughout loses as much indentation as it loses characters at its
start. -/
theorem indentation_add (h : Trims width line rest) (hwidth : width ≤ indentation line)
    (hline : isAllBlank line = false) : indentation rest + width = indentation line := by
  obtain ⟨front, tail, hparts, hlength, htail⟩ := h.parts
  have hfront := isIndent_of_front (hparts.trans (List.append_assoc _ _ _)) (hlength ▸ hwidth)
  -- There is a letter in what is left, so the indentation ends before the blanks that are lost.
  have letter : ¬(rest.toList.takeWhile isIndent).length = rest.toList.length := by
    intro hall
    have hrest : ∀ c ∈ rest.toList, isIndent c = true := by
      rw [← (List.takeWhile_prefix isIndent).eq_of_length hall]
      exact List.all_eq_true.1 List.all_takeWhile
    rw [isAllBlank, hparts, List.all_append, List.all_append,
      List.all_eq_true.2 fun c hc => isBlank_of_isIndent (hfront c hc),
      List.all_eq_true.2 fun c hc => isBlank_of_isIndent (hrest c hc),
      List.all_eq_true.2 htail] at hline
    cases hline
  rw [indentation, indentation, hparts, List.append_assoc, List.takeWhile_append_of_pos hfront,
    List.takeWhile_append, if_neg letter, List.length_append, hlength, Nat.add_comm]

end Trims

/-! ### Protected lines -/

/-- The line that is `offset` lines below the start of the node is a later line of a template
literal in the node. -/
def IsTemplateLine (src : Source) (n : Node) (offset : Nat) : Prop :=
  ∃ literal ∈ n.preorder, literal.kind = "template_string" ∧
    (src.position literal.start).line < (src.position n.start).line + offset ∧
    (src.position n.start).line + offset ≤ (src.position literal.stop).line

/-- Lines inside a template are protected. -/
theorem isProtected_iff {n : Node} {offset : Nat} :
    isProtected src n offset = true ↔ IsTemplateLine src n offset := by
  simp only [isProtected, IsTemplateLine, List.any_eq_true, Bool.and_eq_true, beq_iff_eq,
    List.contains_iff_mem, Location.laterLines, List.mem_range'_1, Source.locate, Source.location,
    Source.startOf]
  refine exists_congr fun literal => and_congr_right fun _ => and_congr_right fun _ => ?_
  omega

/-- Nodes do not start on an earlier line than the ones before them. -/
theorem not_isTemplateLine_zero {n : Node} (h : ∀ m ∈ n.preorder, n.start ≤ m.start) :
    ¬IsTemplateLine src n 0 := by
  rintro ⟨literal, hliteral, -, hline, -⟩
  have := src.line_add_count (h literal hliteral)
  omega

/-! ### All lines -/

/-- Cutting a text into lines loses no letters. -/
theorem flatMap_letters_lines (text : String) : (lines text).flatMap letters = letters text := by
  have chars (cs : List Char) :
      (splitOn '\n' cs).flatMap (List.filter (!isBlank ·)) = cs.filter (!isBlank ·) := by
    induction cs with
    | nil => rfl
    | cons c cs ih =>
      by_cases hc : c = '\n'
      · subst hc
        rw [splitOn_cons_sep, List.flatMap_cons, ih]
        rfl
      · obtain ⟨part, parts, hparts, hcons⟩ := exists_splitOn_cons hc cs
        rw [hparts, List.flatMap_cons] at ih
        rw [hcons, List.flatMap_cons, List.filter_cons, List.filter_cons, ← ih]
        split <;> rfl
  rw [lines, Text.parts, List.flatMap_map, letters, ← chars]
  exact List.flatMap_congr fun part _ => by rw [letters, String.toList_ofList]

/-- The line at a place of the text is moved to the left margin: it is not protected, it holds a
letter, and it is indented at least as far as the node. -/
structure IsMoved (src : Source) (n : Node) (text : String) (i : Nat) (line : String) : Prop where
  isLine : (lines text)[i]? = some line
  unprotected : ¬IsTemplateLine src n i
  letter : isAllBlank line = false
  deep : lineIndent src n ≤ indentation line

/-- What moving a text to the left margin takes off it. -/
structure IsOutdented (src : Source) (n : Node) (text : String) (out : List String) : Prop where
  /-- There are as many lines as before, one more than there are line feeds. -/
  length_eq : out.length = (lines text).length
  length_lines : (lines text).length = text.toList.count '\n' + 1
  /-- A text without line feeds stays as it is. -/
  single : '\n' ∉ text.toList → out = [text]
  /-- Otherwise the first line loses the blanks at its end. -/
  first : ∀ line, '\n' ∈ text.toList → (lines text)[0]? = some line →
    ∃ rest, out[0]? = some rest ∧ Trims 0 line rest
  /-- A later line of a template literal stays as it is. -/
  kept : ∀ i line, (lines text)[i + 1]? = some line → IsTemplateLine src n (i + 1) →
    out[i + 1]? = some line
  /-- Any other line loses the indentation of the node, as far as it has it, and the blanks at its
  end. -/
  moved : ∀ i line, (lines text)[i + 1]? = some line → ¬IsTemplateLine src n (i + 1) →
    ∃ rest, out[i + 1]? = some rest ∧ Trims (min (lineIndent src n) (indentation line)) line rest
  /-- The first line is none of those that stay as they are, unless a node below starts on an earlier
  line. -/
  first_unprotected : (∀ m ∈ n.preorder, n.start ≤ m.start) → ¬IsTemplateLine src n 0
  /-- No letters are lost or moved. -/
  letters_eq : out.flatMap letters = letters text
  /-- Lines that are moved keep their indentation relative to one another. -/
  relative : ∀ i j a b a' b', IsMoved src n text (i + 1) a → IsMoved src n text (j + 1) b →
    out[i + 1]? = some a' → out[j + 1]? = some b' →
    (indentation a' : Int) - indentation b' = indentation a - indentation b

/-- No line is lost. -/
theorem length_outdent (text : String) (n : Node) :
    (outdent src text n).length = (lines text).length := by
  unfold outdent
  split
  case h_1 first second rest hlines => simp [hlines]
  case h_2 => rfl

/-- There is one line more than line feeds. -/
theorem length_lines (text : String) : (lines text).length = text.toList.count '\n' + 1 := by
  rw [lines, parts, List.length_map, length_splitOn]

theorem lines_of_single {text : String} (h : '\n' ∉ text.toList) : lines text = [text] := by
  rw [lines, parts, splitOn_of_not_mem h, List.map_singleton, String.ofList_toList]

/-- A single line stays. -/
theorem outdent_of_single {text : String} (h : '\n' ∉ text.toList) (n : Node) :
    outdent src text n = [text] := by
  rw [outdent, lines_of_single h]

/-- The first line of several loses the blanks at its end. -/
theorem getElem?_outdent_zero {text : String} (h : '\n' ∈ text.toList) (n : Node) :
    (outdent src text n)[0]? = (lines text)[0]?.map stripEnd := by
  have hseveral := length_lines text
  have hfeed := List.count_pos_iff.2 h
  -- With a line feed in the text there are at least two lines.
  cases hlines : lines text with
  | nil => simp [hlines] at hseveral
  | cons first rest =>
    cases rest with
    | nil =>
      rw [hlines, List.length_singleton] at hseveral
      omega
    | cons second rest =>
      rw [outdent, hlines]
      rfl

/-- Other lines lose at most their indent. -/
theorem trims_outdentLine {n : Node} {offset : Nat} (h : ¬IsTemplateLine src n offset)
    (line : String) :
    Trims (min (lineIndent src n) (indentation line)) line (outdentLine src n offset line) := by
  rw [outdentLine, if_neg (isProtected_iff.not.2 h), dropIndent_eq_drop, ← indentation]
  refine trims_stripEnd (Nat.le_trans (Nat.min_le_right _ _) ?_)
  exact (List.takeWhile_prefix isIndent).length_le

/-- Trimming keeps the letters. -/
theorem letters_stripEnd (line : String) : letters (stripEnd line) = letters line :=
  (trims_stripEnd_zero line).letters_eq (Nat.zero_le _)

/-- Moving a line keeps its letters. -/
theorem letters_outdentLine (n : Node) (offset : Nat) (line : String) :
    letters (outdentLine src n offset line) = letters line := by
  by_cases h : IsTemplateLine src n offset
  · rw [outdentLine, if_pos (isProtected_iff.2 h)]
  · exact (trims_outdentLine h line).letters_eq (Nat.min_le_right _ _)

/-- Every line keeps its letters. -/
theorem map_letters_outdent (text : String) (n : Node) :
    (outdent src text n).map letters = (lines text).map letters := by
  refine List.ext_getElem? fun i => ?_
  rw [List.getElem?_map, List.getElem?_map]
  cases i with
  | zero =>
    by_cases h : '\n' ∈ text.toList
    · simp only [getElem?_outdent_zero h, Option.map_map, Function.comp_def, letters_stripEnd]
    · rw [outdent_of_single h, lines_of_single h]
  | succ i =>
    simp only [getElem?_outdent, Option.map_map, Function.comp_def, letters_outdentLine]

/-- **The left margin.** Whatever text is moved to the left margin of whatever node, it keeps its
lines. A text of one line stays as it is, and so do the later lines of template literals in the node.
The first of several lines loses the blanks at its end; every other line loses these and the
indentation of the line on which the node starts, as far as it has it. So no letters are lost, and
lines that are indented at least as far as that keep their indentation relative to one another. -/
theorem isOutdented_outdent (src : Source) (n : Node) (text : String) :
    IsOutdented src n text (outdent src text n) where
  length_eq := length_outdent text n
  length_lines := length_lines text
  single h := outdent_of_single h n
  first line h hline := by
    refine ⟨stripEnd line, ?_, trims_stripEnd_zero line⟩
    rw [getElem?_outdent_zero h, hline, Option.map_some]
  kept i line hline h := by
    rw [getElem?_outdent, hline, Option.map_some, outdentLine, if_pos (isProtected_iff.2 h)]
  moved i line hline h := by
    refine ⟨outdentLine src n (i + 1) line, ?_, trims_outdentLine h line⟩
    rw [getElem?_outdent, hline, Option.map_some]
  first_unprotected := not_isTemplateLine_zero
  letters_eq := by
    rw [List.flatMap_def, map_letters_outdent, ← List.flatMap_def, flatMap_letters_lines]
  relative i j a b a' b' ha hb ha' hb' := by
    have hmoved {i : Nat} {line line' : String} (h : IsMoved src n text (i + 1) line)
        (h' : (outdent src text n)[i + 1]? = some line') :
        indentation line' + lineIndent src n = indentation line := by
      rw [getElem?_outdent, h.isLine, Option.map_some] at h'
      obtain rfl := Option.some.inj h'
      have trims := trims_outdentLine h.unprotected line
      rw [Nat.min_eq_left h.deep] at trims
      exact trims.indentation_add h.deep h.letter
    have := hmoved ha ha'
    have := hmoved hb hb'
    omega

end Sveltify.Expression
