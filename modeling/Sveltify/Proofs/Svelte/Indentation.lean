import Mathlib.Data.List.Infix
import Sveltify.Proofs.Lines
import Sveltify.Proofs.Svelte.ScriptTag

namespace Sveltify.Svelte

open Text

/-!
# The indentation of scripts

The lines of a script are moved to the right by one level when they are put into its tags. This is
done line by line, whatever the lines are part of, and so it reaches the later lines of a literal
that spans several lines.

* `IsOk`, `SvelteComponent.isNative`: a component of nodes that belong where they stand is printed;
* `shifted`: a text with its lines moved, character by character, so that it can be told part by
  part (`shifted_append`);
* `hanging`: a text whose lines behind the first are moved;
* `infix_joinEntries`, `infix_unlines`, `statement_infix_print`: a statement in print;
* `raw_literal_shifted`: a literal in print, and when it is kept as it is.
-/

/-! ### Components that can be printed -/

/-- The computation gives a result. -/
def IsOk {ε α : Type} (x : Except ε α) : Prop := ∃ a, x = .ok a

namespace IsOk

variable {ε α β : Type}

theorem ok (a : α) : IsOk (.ok a : Except ε α) := ⟨a, rfl⟩

theorem bind {x : Except ε α} {f : α → Except ε β} (hx : IsOk x) (hf : ∀ a, IsOk (f a)) :
    IsOk (x >>= f) := by
  obtain ⟨a, rfl⟩ := hx
  exact hf a

theorem mapM {f : α → Except ε β} {as : List α} (h : ∀ a ∈ as, IsOk (f a)) :
    IsOk (as.mapM f) := by
  induction as with
  | nil => exact ok []
  | cons a as ih =>
    obtain ⟨ha, has⟩ := List.forall_mem_cons.1 h
    rw [List.mapM_cons]
    exact ha.bind fun _ => (ih has).bind fun _ => ok _

end IsOk

/-- Is the attribute one that markup knows? -/
def TemplateAttribute.isNative (a : TemplateAttribute) : Bool :=
  match a.kind with
  | .foreign _ => false
  | _ => true

/-- Is the entry one that belongs in a script? -/
def ScriptNode.isNative : ScriptNode → Bool
  | .foreign _ => false
  | _ => true

mutual

/-- Does all of a node belong in markup? -/
def nodeNative : TemplateNode → Bool
  | .element _ attributes children _ =>
    attributes.all TemplateAttribute.isNative && nodesNative children
  | .component _ attributes children =>
    attributes.all TemplateAttribute.isNative && nodesNative children
  | .conditional branches elseChildren => branchesNative branches && elseNative elseChildren
  | .each _ _ _ _ children => nodesNative children
  | .snippet _ _ children => nodesNative children
  | .text _ | .expression _ | .html _ | .render _ | .constant _ | .placeholder _ => true
  | .foreign _ => false

/-- Do all of several nodes belong in markup? -/
def nodesNative : List TemplateNode → Bool
  | [] => true
  | n :: rest => nodeNative n && nodesNative rest

/-- Does all of the branches belong in markup? -/
def branchesNative : List IfBranch → Bool
  | [] => true
  | .mk _ children :: rest => nodesNative children && branchesNative rest

/-- Does all belong in markup that is shown where no condition holds? -/
def elseNative : Option (List TemplateNode) → Bool
  | none => true
  | some children => nodesNative children

end

/-- Does each part of the component belong where it stands? -/
def SvelteComponent.isNative (c : SvelteComponent) : Bool :=
  c.moduleScript.all ScriptNode.isNative && c.script.all ScriptNode.isNative
    && nodesNative c.template

/-- Native attributes are printed. -/
theorem isOk_attributeTexts {attributes : List TemplateAttribute}
    (h : attributes.all TemplateAttribute.isNative = true) :
    IsOk (attributes.mapM TemplateAttribute.text) := by
  refine IsOk.mapM fun a ha => ?_
  have hnative := List.all_eq_true.1 h a ha
  unfold TemplateAttribute.isNative at hnative
  unfold TemplateAttribute.text
  dsimp only
  cases hkind : a.kind with
  | bind =>
    dsimp only
    split <;> exact IsOk.ok _
  | foreign kind => simp [hkind] at hnative
  | _ => exact IsOk.ok _

mutual

/-- A native node can be tried within a line. -/
theorem isOk_inlineNode (n : TemplateNode) (h : nodeNative n = true) : IsOk (inlineNode n) := by
  cases n with
  | element tag attributes children isVoid =>
    simp only [nodeNative, Bool.and_eq_true] at h
    cases isVoid with
    | true => exact IsOk.ok _
    | false =>
      refine ((isOk_attributeTexts h.1).bind fun _ => IsOk.ok _).bind fun texts => ?_
      cases texts with
      | none => exact IsOk.ok _
      | some texts => exact (isOk_inlineNodes children h.2).bind fun _ => IsOk.ok _
  | _ => exact IsOk.ok _

/-- So can native nodes. -/
theorem isOk_inlineNodes (ns : List TemplateNode) (h : nodesNative ns = true) :
    IsOk (inlineNodes ns) := by
  cases ns with
  | nil => exact IsOk.ok _
  | cons n rest =>
    simp only [nodesNative, Bool.and_eq_true] at h
    exact (isOk_inlineNode n h.1).bind fun _ =>
      (isOk_inlineNodes rest h.2).bind fun _ => IsOk.ok _

end

/-- Content is printed if its block is. -/
theorem isOk_contentLines (pad name : String) (opening : List String) (oneLine : Option String)
    {children : List TemplateNode} {block : Except PrintError (List String)}
    (hchildren : nodesNative children = true) (hblock : IsOk block) :
    IsOk (contentLines pad name opening oneLine children block) := by
  have blockLines : IsOk (do return opening ++ (← block) ++ [pad ++ closeTag name]) :=
    hblock.bind fun _ => IsOk.ok _
  unfold contentLines
  cases oneLine with
  | none => exact blockLines
  | some openText =>
    dsimp only
    split
    · refine (isOk_inlineNodes children hchildren).bind fun content => ?_
      cases content with
      | none => exact blockLines
      | some content =>
        rw [Option.map_some, pure_bind]
        dsimp only
        split
        · exact IsOk.ok _
        · exact blockLines
    · exact blockLines

/-- An element is printed if its content is. -/
theorem isOk_elementLines {indent : String} {depth : Nat} {name : String}
    {attributes : List TemplateAttribute} {children : List TemplateNode} (isSelfClosing : Bool)
    {block : Except PrintError (List String)}
    (hattributes : attributes.all TemplateAttribute.isNative = true)
    (hchildren : nodesNative children = true) (hblock : IsOk block) :
    IsOk (elementLines indent depth name attributes children isSelfClosing block) := by
  unfold elementLines
  refine (isOk_attributeTexts hattributes).bind fun texts => ?_
  dsimp only
  generalize (if texts.any hasLineFeed = true then none else some _) = oneLine
  by_cases hclosing : isSelfClosing = true
  · rw [if_pos hclosing]
    exact IsOk.ok _
  rw [if_neg hclosing]
  split
  · exact IsOk.ok _
  · exact isOk_contentLines _ _ _ _ hchildren hblock

mutual

/-- Native nodes are printed. -/
theorem isOk_nodeLines (indent : String) (depth : Nat) (n : TemplateNode)
    (h : nodeNative n = true) : IsOk (nodeLines indent depth n) := by
  cases n with
  | element tag attributes children isVoid =>
    simp only [nodeNative, Bool.and_eq_true] at h
    exact isOk_elementLines isVoid h.1 h.2 (isOk_nodesLines indent (depth + 1) children h.2)
  | component name attributes children =>
    simp only [nodeNative, Bool.and_eq_true] at h
    exact isOk_elementLines _ h.1 h.2 (isOk_nodesLines indent (depth + 1) children h.2)
  | conditional branches elseChildren =>
    simp only [nodeNative, Bool.and_eq_true] at h
    exact (isOk_branchLines indent depth "#if" branches h.1).bind fun _ =>
      (isOk_elseLines indent depth elseChildren h.2).bind fun _ => IsOk.ok _
  | each expression item index key children =>
    exact (isOk_nodesLines indent (depth + 1) children h).bind fun _ => IsOk.ok _
  | snippet name parameters children =>
    exact (isOk_nodesLines indent (depth + 1) children h).bind fun _ => IsOk.ok _
  | foreign kind => cases h
  | _ => exact IsOk.ok _

theorem isOk_nodesLines (indent : String) (depth : Nat) (ns : List TemplateNode)
    (h : nodesNative ns = true) : IsOk (nodesLines indent depth ns) := by
  cases ns with
  | nil => exact IsOk.ok _
  | cons n rest =>
    simp only [nodesNative, Bool.and_eq_true] at h
    exact (isOk_nodeLines indent depth n h.1).bind fun _ =>
      (isOk_nodesLines indent depth rest h.2).bind fun _ => IsOk.ok _

theorem isOk_branchLines (indent : String) (depth : Nat) (opener : String) (bs : List IfBranch)
    (h : branchesNative bs = true) : IsOk (branchLines indent depth opener bs) := by
  cases bs with
  | nil => exact IsOk.ok _
  | cons b rest =>
    obtain ⟨condition, children⟩ := b
    simp only [branchesNative, Bool.and_eq_true] at h
    exact (isOk_nodesLines indent (depth + 1) children h.1).bind fun _ =>
      (isOk_branchLines indent depth ":else if" rest h.2).bind fun _ => IsOk.ok _

theorem isOk_elseLines (indent : String) (depth : Nat) (content : Option (List TemplateNode))
    (h : elseNative content = true) : IsOk (elseLines indent depth content) := by
  cases content with
  | none => exact IsOk.ok _
  | some children =>
    exact (isOk_nodesLines indent (depth + 1) children h).bind fun _ => IsOk.ok _

end

/-- A native template is printed. -/
theorem isOk_templateLines (indent : String) {ns : List TemplateNode} (h : nodesNative ns = true) :
    IsOk (templateLines indent ns) := by
  induction ns with
  | nil => exact IsOk.ok _
  | cons n rest ih =>
    simp only [nodesNative, Bool.and_eq_true] at h
    exact (isOk_nodeLines indent 0 n h.1).bind fun _ => (ih h.2).bind fun _ => IsOk.ok _

/-- A native script is printed. -/
theorem isOk_scriptLines (indent : String) (typescript : Bool) {nodes : List ScriptNode}
    (h : nodes.all ScriptNode.isNative = true) : IsOk (scriptLines indent typescript nodes) := by
  refine (IsOk.mapM fun n hn => ?_).bind fun _ => IsOk.ok _
  have hnative := List.all_eq_true.1 h n hn
  cases n with
  | foreign kind => cases hnative
  | _ => exact IsOk.ok _

/-- A component whose parts belong where they stand is printed. -/
theorem isOk_print {c : SvelteComponent} (h : c.isNative = true) (width : Nat) :
    IsOk (c.print width) := by
  simp only [SvelteComponent.isNative, Bool.and_eq_true] at h
  obtain ⟨⟨hmodule, hscript⟩, htemplate⟩ := h
  refine IsOk.bind ?_ fun _ => IsOk.ok _
  refine (isOk_scriptLines _ _ hmodule).bind fun _ => ?_
  refine ((isOk_scriptLines _ _ hscript).bind fun _ => IsOk.ok _).bind fun _ => ?_
  exact (isOk_templateLines _ htemplate).bind fun _ => IsOk.ok _

/-! ### Lines moved to the right -/

/-- The text with `pad` in front of the first character of each line. Whether a line starts where
the text does is given by `isFresh`. -/
def shifted (pad : List Char) : Bool → List Char → List Char
  | _, [] => []
  | isFresh, c :: cs =>
    if c = '\n' then '\n' :: shifted pad true cs
    else (if isFresh then pad else []) ++ c :: shifted pad false cs

section Shifted

variable (pad : List Char)

/-- Text in two parts is shifted part by part. -/
theorem shifted_append (isFresh : Bool) (xs ys : List Char) :
    ∃ isFresh', shifted pad isFresh (xs ++ ys) =
      shifted pad isFresh xs ++ shifted pad isFresh' ys := by
  induction xs generalizing isFresh with
  | nil => exact ⟨isFresh, rfl⟩
  | cons x xs ih =>
    by_cases hx : x = '\n'
    · obtain ⟨isFresh', h⟩ := ih true
      exact ⟨isFresh', by simp [shifted, hx, h]⟩
    · obtain ⟨isFresh', h⟩ := ih false
      exact ⟨isFresh', by simp [shifted, hx, h]⟩

/-- A part of a text that starts inside a line: its lines behind the first are moved. -/
theorem shifted_infix {c : Char} (hc : c ≠ '\n') (isFresh : Bool) (before cs after : List Char) :
    shifted pad false (c :: cs) <:+: shifted pad isFresh (before ++ (c :: cs) ++ after) := by
  obtain ⟨outer, hafter⟩ := shifted_append pad isFresh (before ++ (c :: cs)) after
  obtain ⟨inner, hinner⟩ := shifted_append pad isFresh before (c :: cs)
  refine ⟨shifted pad isFresh before ++ (if inner then pad else []), shifted pad outer after, ?_⟩
  rw [hafter, hinner]
  simp [shifted, hc]

/-- Without padding nothing moves. -/
theorem shifted_of_isEmpty (isFresh : Bool) (cs : List Char) : shifted [] isFresh cs = cs := by
  induction cs generalizing isFresh with
  | nil => rfl
  | cons c cs ih =>
    by_cases hc : c = '\n'
    · simp [shifted, hc, ih]
    · simp [shifted, hc, ih]

/-- Text within a line does not move. -/
theorem shifted_of_not_mem {cs : List Char} (h : '\n' ∉ cs) : shifted pad false cs = cs := by
  induction cs with
  | nil => rfl
  | cons c cs ih =>
    rw [List.mem_cons, not_or] at h
    simp [shifted, Ne.symm h.1, ih h.2]

/-- Shifted text is no shorter. -/
theorem le_length_shifted (isFresh : Bool) (cs : List Char) :
    cs.length ≤ (shifted pad isFresh cs).length := by
  induction cs generalizing isFresh with
  | nil => exact Nat.le_refl _
  | cons c cs ih =>
    by_cases hc : c = '\n'
    · simpa [shifted, hc] using ih true
    · have := ih false
      simp only [shifted, if_neg hc, List.length_append, List.length_cons]
      omega

/-- A text that ends inside a line gets longer if a line starts in it or with it. -/
theorem length_shifted {last : Char} (hlast : last ≠ '\n') (isFresh : Bool) {cs : List Char}
    (h : isFresh = true ∨ '\n' ∈ cs) :
    (cs ++ [last]).length + pad.length ≤ (shifted pad isFresh (cs ++ [last])).length := by
  -- By induction on the text: the padding goes in before the first letter of a line.
  induction cs generalizing isFresh with
  | nil =>
    obtain rfl : isFresh = true := h.resolve_right List.not_mem_nil
    simp [shifted, hlast, Nat.add_comm]
  | cons c cs ih =>
    by_cases hc : c = '\n'
    · have := ih true (.inl rfl)
      simp only [List.cons_append, shifted, if_pos hc, List.length_cons]
      omega
    · cases isFresh with
      | true =>
        have := le_length_shifted pad false (cs ++ [last])
        simp only [List.cons_append, shifted, if_neg hc, if_true, List.length_append,
          List.length_cons] at this ⊢
        omega
      | false =>
        have hmem : '\n' ∈ cs := by simpa [Ne.symm hc] using h
        have := ih false (.inr hmem)
        simp only [List.cons_append, shifted, if_neg hc, Bool.false_eq_true, if_false,
          List.nil_append, List.length_cons]
        omega

/-- A text that ends inside a line is kept just if it is one line, or moved by nothing. -/
theorem shifted_eq_self_iff {last : Char} (hlast : last ≠ '\n') (cs : List Char) :
    shifted pad false (cs ++ [last]) = cs ++ [last] ↔ pad = [] ∨ '\n' ∉ cs := by
  constructor
  · intro h
    by_contra hboth
    rw [not_or, not_not] at hboth
    have longer := length_shifted pad hlast false (.inr hboth.2)
    have := List.length_pos_of_ne_nil hboth.1
    rw [h] at longer
    omega
  · rintro (rfl | h)
    · exact shifted_of_isEmpty false _
    · exact shifted_of_not_mem pad (by simpa [Ne.symm hlast] using h)

end Shifted

/-- The text with `pad` in front of each line behind the first, empty lines left empty. -/
def hanging (pad s : String) : String :=
  match lines s with
  | [] => ""
  | first :: rest => unlines (first :: padLines pad rest)

theorem unlines_cons_cons (l l' : String) (ls : List String) :
    unlines (l :: l' :: ls) = l ++ "\n" ++ unlines (l' :: ls) :=
  String.intercalate_cons_cons

theorem toList_unlines_cons (l : String) (ls : List String) :
    (unlines (l :: ls)).toList = l.toList ++ ls.flatMap fun l => '\n' :: l.toList := by
  induction ls generalizing l with
  | nil => simp [unlines]
  | cons l' ls ih =>
    rw [unlines_cons_cons, String.toList_append, ih]
    simp

/-- What is moved character by character is moved line by line. -/
theorem shifted_eq (pad : String) (isFresh : Bool) {cs first : List Char}
    {rest : List (List Char)} (h : splitOn '\n' cs = first :: rest) :
    shifted pad.toList isFresh cs =
      (if isFresh = true ∧ first ≠ [] then pad.toList else []) ++ first ++
        rest.flatMap fun l => '\n' :: (padLine pad (String.ofList l)).toList := by
  -- By induction on the text, which goes on within a line or with the next one.
  induction cs generalizing isFresh first rest with
  | nil =>
    cases h
    simp [shifted]
  | cons c cs ih =>
    obtain ⟨first', rest', hparts⟩ := List.exists_cons_of_ne_nil (splitOn_ne_nil '\n' cs)
    by_cases hc : c = '\n'
    · subst hc
      rw [splitOn_cons_sep, hparts] at h
      cases h
      rw [shifted, if_pos rfl, ih true hparts]
      by_cases hfirst : first' = [] <;> simp [padLine, hfirst]
    · obtain ⟨part, parts, hsplit, hcons⟩ := exists_splitOn_cons hc cs
      rw [hcons] at h
      cases h
      rw [shifted, if_neg hc, ih false hsplit]
      simp

/-- Only later lines are shifted. -/
theorem toList_hanging (pad s : String) :
    (hanging pad s).toList = shifted pad.toList false s.toList := by
  obtain ⟨first, rest, hparts⟩ := List.exists_cons_of_ne_nil (splitOn_ne_nil '\n' s.toList)
  have hlines : lines s = String.ofList first :: rest.map String.ofList := by
    rw [lines, parts, hparts, List.map_cons]
  rw [hanging, hlines, shifted_eq pad false hparts]
  dsimp only
  rw [toList_unlines_cons, padLines, List.map_map, List.flatMap_map]
  simp

/-- All lines are shifted. -/
theorem toList_unlines_padLines (pad s : String) :
    (unlines (padLines pad (lines s))).toList = shifted pad.toList true s.toList := by
  obtain ⟨first, rest, hparts⟩ := List.exists_cons_of_ne_nil (splitOn_ne_nil '\n' s.toList)
  have hlines : lines s = String.ofList first :: rest.map String.ofList := by
    rw [lines, parts, hparts, List.map_cons]
  rw [hlines, padLines, List.map_cons, toList_unlines_cons, shifted_eq pad true hparts,
    List.map_map, List.flatMap_map]
  by_cases hfirst : first = [] <;> simp [padLine, hfirst]

/-! ### Statements in print -/

/-- The lines of an entry stand together in a script. -/
theorem infix_joinEntries {entry : List String} {entries : List (List String)}
    (h : entry ∈ entries) : entry <:+: joinEntries entries := by
  fun_induction joinEntries entries with
  | case1 => cases h
  | case2 only => rw [List.mem_singleton.1 h]
  | case3 first next rest gap ih =>
    rcases List.mem_cons.1 h with rfl | h
    · rw [List.append_assoc]
      exact (List.prefix_append _ _).isInfix
    · exact (ih h).trans (List.suffix_append _ _).isInfix

/-- A part of the lines is a part of the text. -/
theorem infix_intercalate (sep : String) {xs ys : List String} (h : xs <:+: ys) (hxs : xs ≠ []) :
    (sep.intercalate xs).toList <:+: (sep.intercalate ys).toList := by
  obtain ⟨before, after, rfl⟩ := h
  have front : (sep.intercalate xs).toList <:+: (sep.intercalate (before ++ xs)).toList := by
    by_cases hbefore : before = []
    · rw [hbefore, List.nil_append]
    · rw [String.intercalate_append_of_ne_nil hbefore hxs, String.toList_append]
      exact (List.suffix_append _ _).isInfix
  refine front.trans ?_
  by_cases hafter : after = []
  · rw [hafter, List.append_nil]
  · rw [String.intercalate_append_of_ne_nil (List.append_ne_nil_of_right_ne_nil _ hxs) hafter,
      String.append_assoc, String.toList_append]
    exact (List.prefix_append _ _).isInfix

/-- The lines of a script stand indented in its tag. -/
theorem infix_scriptTag {body ls : List String} (h : ls <:+: body) (hls : ls ≠ [])
    (indent : String) (typescript isModule : Bool) :
    (unlines (padLines indent ls)).toList <:+:
      (scriptTag indent typescript isModule body).toList := by
  have moved : padLines indent ls <:+: padLines indent body := h.map _
  refine infix_intercalate "\n" (moved.trans ?_) (by simpa [padLines] using hls)
  exact ⟨[_], ["</script>"], rfl⟩

/-- The lines of a statement stand together in its script. -/
theorem infix_scriptLines {indent : String} {typescript : Bool} {nodes : List ScriptNode}
    {body : List String} (h : scriptLines indent typescript nodes = .ok body) {text : String}
    (hraw : .raw text ∈ nodes) : lines text <:+: body := by
  obtain ⟨entries, hentries, hbody⟩ := except_bind_ok_iff.1 h
  cases hbody
  obtain ⟨entry, hentry, hlines⟩ :=
    (exists_of_forall₂ (forall₂_of_except_mapM hentries)).1 _ hraw
  obtain rfl : lines text = entry := Except.ok.inj hlines
  exact infix_joinEntries hentry

/-- A section stands in its file. -/
theorem infix_file {sections : List String} {s : String} (h : s ∈ sections) :
    s.toList <:+: ("\n\n".intercalate sections ++ "\n").toList := by
  obtain ⟨before, after, rfl⟩ := List.append_of_mem h
  have alone : [s] <:+: before ++ s :: after := ⟨before, after, by simp⟩
  have joined := infix_intercalate "\n\n" alone (List.cons_ne_nil _ _)
  rw [String.intercalate_singleton] at joined
  rw [String.toList_append]
  exact joined.trans (List.prefix_append _ _).isInfix

/-- A level of indentation. -/
def spaces (width : Nat) : String := String.ofList (List.replicate width ' ')

@[simp] theorem toList_spaces (width : Nat) : (spaces width).toList = List.replicate width ' ' :=
  String.toList_ofList

/-- A statement stands in the file with each of its lines moved by one level. -/
theorem statement_infix_print {c : SvelteComponent} {width : Nat} {file : String}
    (hfile : c.print width = .ok file) {text : String}
    (hraw : .raw text ∈ c.moduleScript ∨ .raw text ∈ c.script) :
    (unlines (padLines (spaces width) (lines text))).toList <:+: file.toList := by
  obtain ⟨sections, hsections, hfile⟩ := except_bind_ok_iff.1 hfile
  cases hfile
  obtain ⟨moduleBody, hmodule, hsections⟩ := except_bind_ok_iff.1 hsections
  obtain ⟨instanceBody, hinstance, hsections⟩ := except_bind_ok_iff.1 hsections
  obtain ⟨markup, -, hsections⟩ := except_bind_ok_iff.1 hsections
  obtain ⟨body, hscript, hinstance⟩ := except_bind_ok_iff.1 hinstance
  cases hsections
  cases hinstance
  have hlines := lines_ne_nil text
  rcases hraw with hraw | hraw
  · have tag := infix_scriptTag (infix_scriptLines hmodule hraw) hlines (spaces width)
      c.typescript true
    refine tag.trans (infix_file ?_)
    simp [List.ne_nil_of_mem hraw, spaces]
  · -- The imports stand in front of the script in the same tags.
    have inner := (infix_scriptLines hscript hraw).trans (List.suffix_append
      (c.importLines ++ if c.importLines.isEmpty || body.isEmpty then [] else [""]) body).isInfix
    have tag := infix_scriptTag inner hlines (spaces width) c.typescript false
    have hbody : body ≠ [] := fun hnil =>
      hlines (List.infix_nil.1 (hnil ▸ infix_scriptLines hscript hraw))
    refine tag.trans (infix_file ?_)
    simp [hbody, spaces]

/-! ### Literals in print -/

/-- **Indentation.** A component whose parts belong where they stand is printed, at every width. A
statement of its scripts stands in the file with each line moved by one level, and so a literal in
it, between two backticks, stands there with each line behind the first moved. This is the literal
itself just if it is a single line, or if a level has no width. -/
theorem raw_literal_shifted {c : SvelteComponent} (hnative : c.isNative = true)
    {text literal before inner after : String} (hliteral : literal = "`" ++ inner ++ "`")
    (htext : text = before ++ literal ++ after)
    (hraw : .raw text ∈ c.moduleScript ∨ .raw text ∈ c.script) (width : Nat) :
    ∃ file, c.print width = .ok file ∧
      (unlines (padLines (spaces width) (lines text))).toList <:+: file.toList ∧
      (hanging (spaces width) literal).toList <:+:
        (unlines (padLines (spaces width) (lines text))).toList ∧
      (hanging (spaces width) literal = literal ↔ width = 0 ∨ '\n' ∉ inner.toList) := by
  obtain ⟨file, hfile⟩ := isOk_print hnative width
  have chars : literal.toList = '\x60' :: (inner.toList ++ ['\x60']) := by simp [hliteral]
  refine ⟨file, hfile, statement_infix_print hfile hraw, ?_, ?_⟩
  · rw [toList_hanging, toList_unlines_padLines, htext, String.toList_append,
      String.toList_append, chars]
    exact shifted_infix _ (by decide) true _ _ _
  · rw [← String.toList_inj, toList_hanging, chars, ← List.cons_append,
      shifted_eq_self_iff _ (by decide)]
    simp [spaces]

section Sample

/-- A component with a literal of two lines in its script. -/
def greeting : SvelteComponent :=
  { name := "Greeting", script := [.raw "const text = `Dear\nreader`;"] }

/-- A greeting whose second line is moved. -/
theorem raw_literal_shifted_of_greeting : ∃ file, greeting.print 4 = .ok file ∧
    "`Dear\n    reader`".toList <:+: file.toList := by
  have native : greeting.isNative = true := by decide +kernel
  have literal : "`Dear\nreader`" = "`" ++ "Dear\nreader" ++ "`" := by decide +kernel
  have text : "const text = `Dear\nreader`;" = "const text = " ++ "`Dear\nreader`" ++ ";" := by
    decide +kernel
  obtain ⟨file, hfile, hstatement, hliteral, -⟩ :=
    raw_literal_shifted native literal text (.inr List.mem_cons_self) 4
  have moved : hanging (spaces 4) "`Dear\nreader`" = "`Dear\n    reader`" := by decide +kernel
  exact ⟨file, hfile, moved ▸ hliteral.trans hstatement⟩

/-- At the usual width, the literal does not stand in the file as it is in the script. -/
theorem raw_literal_changed : ∃ file, greeting.print 2 = .ok file ∧
    "`Dear\nreader`".toList <:+: "const text = `Dear\nreader`;".toList ∧
    ¬ "`Dear\nreader`".toList <:+: file.toList := by
  refine ⟨"<script>\n  const text = `Dear\n  reader`;\n</script>\n", ?_, ?_, ?_⟩ <;> decide +kernel

end Sample

end Sveltify.Svelte
