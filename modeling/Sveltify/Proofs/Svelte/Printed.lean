import Sveltify.Proofs.Svelte.Nesting

namespace Sveltify.Svelte

open Text

/-!
# The structure of a template in print

The tags and blocks that are read off the print of a template are those of the template, in
whichever way each of its nodes is laid out.

* `IsAttribute`: text that leads from one attribute of a tag to the next;
* `Prints`, `Inlines`: the tokens of lines, and of the print on one line;
* `prints_elementLines`, `prints_selfClosing`: the layouts of an element;
* `inlines_nodes`, `prints_nodes`, `prints_template`: the layouts of a template.
-/

/-! ### Attributes in print -/

theorem isPlain_append (s t : String) : isPlain (s ++ t) = (isPlain s && isPlain t) := by
  simp [isPlain]

theorem toList_braced (s : String) : (braced s).toList = '\x7b' :: (s.toList ++ ['\x7d']) := by
  simp [braced, toString]

/-- The text leads from one attribute to the next. -/
def IsAttribute (cs : List Char) : Prop :=
  ∀ name, Reads (.tag name false) cs (.tag name false) []

/-- Two attributes side by side. -/
theorem IsAttribute.append {cs cs' : List Char} (h : IsAttribute cs) (h' : IsAttribute cs') :
    IsAttribute (cs ++ cs') :=
  fun name => (h' name).after (h name)

/-- Plain text may stand in a tag. -/
theorem isAttribute_of_isPlain {s : String} (h : isPlain s = true) : IsAttribute s.toList :=
  fun _ => reads_plain rfl (isPlain_iff.1 h)

/-- So may plain text between braces. -/
theorem isAttribute_braced {s : String} (h : isPlain s = true) : IsAttribute (braced s).toList := by
  intro name
  have close : Reads (.value name) ['\x7d'] (.tag name false) [] := rfl
  rw [toList_braced]
  exact (close.after (reads_plain rfl (isPlain_iff.1 h))).afterStep rfl

/-- So may plain text between quotation marks. -/
theorem isAttribute_quoted {s : String} (h : isPlain s = true) :
    IsAttribute ('"' :: (s.toList ++ ['"'])) := by
  intro name
  have close : Reads (.quoted name) ['"'] (.tag name false) [] := rfl
  exact (close.after (reads_plain rfl (isPlain_iff.1 h))).afterStep rfl

/-- A name is plain. -/
theorem isPlain_of_isName {s : String} (h : isName s = true) : isPlain s = true :=
  isPlain_iff.2 fun c hc => ((isName_iff.1 h).2 c hc).1

/-- A printable attribute is printed as one. -/
theorem exists_attributeText {a : TemplateAttribute} (h : a.isPrintable = true) :
    ∃ t, a.text = .ok t ∧ IsAttribute t.toList := by
  obtain ⟨kind, name, value⟩ := a
  unfold TemplateAttribute.isPrintable at h
  rw [Bool.and_eq_true] at h
  obtain ⟨hvalue, hname⟩ := h
  unfold TemplateAttribute.text
  generalize TemplateAttribute.valueText _ = v at hvalue
  have inBraces : IsAttribute (braced v).toList := isAttribute_braced hvalue
  have sign : IsAttribute ['='] := fun _ => rfl
  have named (hname : isName name = true) : IsAttribute name.toList :=
    isAttribute_of_isPlain (isPlain_of_isName hname)
  -- Each text is made of words, a sign and a value, and each of them stays inside the tag.
  cases kind with
  | static =>
    refine ⟨_, rfl, ?_⟩
    simpa [toString] using ((named hname).append sign).append (isAttribute_quoted hvalue)
  | expression =>
    refine ⟨_, rfl, ?_⟩
    simpa [toString] using ((named hname).append sign).append inBraces
  | event =>
    refine ⟨_, rfl, ?_⟩
    simpa [toString] using ((named hname).append sign).append inBraces
  | shorthand => exact ⟨_, rfl, inBraces⟩
  | boolean => exact ⟨_, rfl, named hname⟩
  | spread =>
    refine ⟨_, rfl, isAttribute_braced ?_⟩
    show isPlain ("..." ++ v) = true
    rw [isPlain_append, hvalue]
    rfl
  | bind =>
    have word : IsAttribute "bind:".toList := fun _ => rfl
    by_cases hsame : value = some name
    · refine ⟨_, if_pos hsame, ?_⟩
      simpa [toString] using word.append (named hname)
    · refine ⟨_, if_neg hsame, ?_⟩
      simpa [toString] using ((word.append (named hname)).append sign).append inBraces
  | style =>
    have word : IsAttribute "style:".toList := fun _ => rfl
    refine ⟨_, rfl, ?_⟩
    simpa [toString] using
      ((word.append (named hname)).append sign).append (isAttribute_of_isPlain hvalue)
  | foreign kind => cases hname

/-- So are all attributes of a tag. -/
theorem exists_attributeTexts {attributes : List TemplateAttribute}
    (h : attributes.all TemplateAttribute.isPrintable = true) :
    ∃ texts, attributes.mapM TemplateAttribute.text = .ok texts ∧
      ∀ t ∈ texts, IsAttribute t.toList := by
  induction attributes with
  | nil => exact ⟨[], rfl, by simp⟩
  | cons a rest ih =>
    simp only [List.all_cons, Bool.and_eq_true] at h
    obtain ⟨t, ht, hread⟩ := exists_attributeText h.1
    obtain ⟨texts, htexts, hreads⟩ := ih h.2
    refine ⟨t :: texts, ?_, List.forall_mem_cons.2 ⟨hread, hreads⟩⟩
    rw [List.mapM_cons, ht, htexts]
    rfl

/-! ### Tags in print -/

section Tags

variable {name : String} {texts : List String}

/-- The end of an opening tag. -/
def tagEnd (isSelfClosing : Bool) : String := if isSelfClosing then " />" else ">"

/-- The opening tag as a token. -/
def openingToken (name : String) (isSelfClosing : Bool) : Token :=
  if isSelfClosing then .stands name else .opens name

/-- Attributes leave the reader inside the tag. -/
theorem reads_attributes (htexts : ∀ t ∈ texts, IsAttribute t.toList) {n : List Char} {m : Mode}
    (hm : m.pause = .tag n false) :
    ∃ m', m'.pause = .tag n false ∧
      Reads m (String.join (texts.map (" " ++ ·))).toList m' [] := by
  -- The first attribute stands behind the name of the tag, the others behind an attribute: a blank
  -- leads to the same place from both.
  induction texts generalizing m with
  | nil => exact ⟨m, hm, reads_nil m⟩
  | cons t rest ih =>
    obtain ⟨first, others⟩ := List.forall_mem_cons.1 htexts
    obtain ⟨m', hm', hread⟩ := ih others (m := .tag n false) rfl
    refine ⟨m', hm', ?_⟩
    have blank : m.step ' ' = (.tag n false, []) := by rw [Mode.step_blank rfl, hm]
    simpa using (hread.after (first n)).afterStep blank

/-- A start tag is read as one token. -/
theorem reads_startTag (hname : isName name = true) (htexts : ∀ t ∈ texts, IsAttribute t.toList)
    (isSelfClosing : Bool) :
    Reads .outside (startTag name texts (tagEnd isSelfClosing)).toList .outside
      [openingToken name isSelfClosing] := by
  obtain ⟨m, hm, attributes⟩ := reads_attributes htexts (m := .opening name.toList) rfl
  have close :
      Reads m (tagEnd isSelfClosing).toList .outside [openingToken name isSelfClosing] := by
    have ends := reads_tagEnd hm
    rw [String.ofList_toList] at ends
    cases isSelfClosing
    · exact ends.1
    · exact ends.2
  simpa [startTag, toString] using (close.after attributes).after (reads_tagName hname)

end Tags

/-! ### Layouts -/

/-- The lines are printed, and they have these tokens. -/
def Prints (x : Except PrintError (List String)) (ts : List Token) : Prop :=
  ∃ ls, x = .ok ls ∧ Reads .outside (lineChars ls) .outside ts

/-- The print on one line has these tokens, if there is one. -/
def Inlines (x : Except PrintError (Option String)) (ts : List Token) : Prop :=
  ∃ s?, x = .ok s? ∧ ∀ s ∈ s?, Reads .outside s.toList .outside ts

section Layouts

variable {indent pad name s : String} {depth : Nat} {texts : List String} {ts ts' : List Token}

/-- Padding is blank. -/
theorem isBlank_padding (hindent : ∀ c ∈ indent.toList, isBlank c = true) (depth : Nat) :
    ∀ c ∈ (padding indent depth).toList, isBlank c = true := by
  intro c hc
  simp only [padding, String.toList_join, List.mem_flatMap] at hc
  obtain ⟨s, hs, hc⟩ := hc
  rw [List.eq_of_mem_replicate hs] at hc
  exact hindent c hc

/-- An indented line. -/
theorem reads_line (hpad : ∀ c ∈ pad.toList, isBlank c = true) {m : Mode} (hm : m.pause = m)
    (h : Reads m s.toList .outside ts) : Reads m (lineChars [pad ++ s]) .outside ts := by
  have feed : Reads .outside ['\n'] .outside [] := rfl
  have text : Reads m (s.toList ++ ['\n']) .outside ts := by simpa using h.append feed
  have indented := (reads_blanks_append hm hpad).2 text
  simpa using indented

section Opening

variable (hindent : ∀ c ∈ indent.toList, isBlank c = true)
include hindent

/-- Padding is not read. -/
theorem reads_padded (depth : Nat) (h : Reads .outside s.toList .outside ts) :
    Reads .outside (lineChars (padded indent depth s)) .outside ts :=
  h.padLines (isBlank_padding hindent depth) rfl

/-- The lines of attributes lead from one line of a tag to another. -/
theorem reads_attributeLines (htexts : ∀ t ∈ texts, IsAttribute t.toList) (depth : Nat)
    (n : List Char) :
    Reads (.tag n false) (lineChars (texts.flatMap (padded indent depth))) (.tag n false) [] := by
  induction texts with
  | nil => exact reads_nil _
  | cons t rest ih =>
    obtain ⟨first, others⟩ := List.forall_mem_cons.1 htexts
    have lines := (first n).padLines (isBlank_padding hindent depth) rfl
    rw [List.flatMap_cons, lineChars_append]
    exact (ih others).after lines

/-- A start tag over several lines is read as one token. -/
theorem reads_tallOpening (hname : isName name = true) (htexts : ∀ t ∈ texts, IsAttribute t.toList)
    (depth : Nat) (isSelfClosing : Bool) :
    Reads .outside (lineChars (tallOpening indent depth name texts (tagEnd isSelfClosing))) .outside
      [openingToken name isSelfClosing] := by
  have hpad := isBlank_padding hindent depth
  have close : Reads (.tag name.toList false) (strip (tagEnd isSelfClosing)).toList .outside
      [openingToken (String.ofList name.toList) isSelfClosing] := by
    cases isSelfClosing <;> rfl
  rw [String.ofList_toList] at close
  have first : Reads .outside ((padding indent depth).toList ++ '<' :: name.toList)
      (.opening name.toList) [] :=
    (reads_blanks_append rfl hpad).2 (reads_tagName hname)
  have rest := (reads_line hpad rfl close).after
    (reads_attributeLines hindent htexts (depth + 1) name.toList)
  simpa [tallOpening, toString] using (rest.afterStep (step_lineFeed _)).after first

end Opening

/-- Content between its tags, on the same line or on lines of its own. -/
theorem prints_contentLines (hpad : ∀ c ∈ pad.toList, isBlank c = true) (hname : isName name = true)
    {opening : List String} (hopening : Reads .outside (lineChars opening) .outside [.opens name])
    {oneLine : Option String}
    (honeLine : ∀ s ∈ oneLine, Reads .outside s.toList .outside [.opens name])
    {children : List TemplateNode} (hinline : Inlines (inlineNodes children) ts)
    {block : Except PrintError (List String)} (hblock : Prints block ts) :
    Prints (contentLines pad name opening oneLine children block)
      (.opens name :: ts ++ [.closes name]) := by
  obtain ⟨ls, rfl, hread⟩ := hblock
  obtain ⟨s?, hs, hcontent⟩ := hinline
  have close := reads_closeTag hname
  have asBlock : Reads .outside (lineChars (opening ++ ls ++ [pad ++ closeTag name])) .outside
      (.opens name :: ts ++ [.closes name]) :=
    (hopening.lines_append hread).lines_append (reads_line hpad rfl close)
  have blockPrints : Prints (.ok (opening ++ ls ++ [pad ++ closeTag name]))
      (.opens name :: ts ++ [.closes name]) := ⟨_, rfl, asBlock⟩
  unfold contentLines
  rw [hs]
  -- All on one line is for an opening tag on one line, content that has a print on one line, and a
  -- whole that is short enough; everything else is a block.
  cases oneLine with
  | none => exact blockPrints
  | some openText =>
    cases hmay : mayInline children with
    | false => exact blockPrints
    | true =>
      cases s? with
      | none => exact blockPrints
      | some content =>
        have text := ((honeLine _ rfl).append (hcontent _ rfl).strip).append close
        simp only [bind, Except.bind, pure, Except.pure, if_true, Option.map_some]
        split
        · refine ⟨_, rfl, ?_⟩
          rw [String.append_assoc, String.append_assoc]
          exact reads_line hpad rfl (by simpa using text)
        · exact blockPrints

section Elements

variable (hindent : ∀ c ∈ indent.toList, isBlank c = true) (hname : isName name = true)
  {attributes : List TemplateAttribute}
  (hattributes : attributes.all TemplateAttribute.isPrintable = true)
  (children : List TemplateNode) {block : Except PrintError (List String)}

include hindent hname hattributes

/-- An element that is closed by its opening tag. -/
theorem prints_selfClosing :
    Prints (elementLines indent depth name attributes children true block) [.stands name] := by
  obtain ⟨texts, htexts, hreads⟩ := exists_attributeTexts hattributes
  unfold elementLines
  rw [htexts]
  by_cases hfeed : texts.any hasLineFeed = true
  · simp only [bind, Except.bind, pure, Except.pure, hfeed, if_true]
    exact ⟨_, rfl, reads_tallOpening hindent hname hreads depth true⟩
  · simp only [bind, Except.bind, pure, Except.pure, hfeed, if_true]
    have tag := reads_startTag hname hreads true
    exact ⟨_, rfl, reads_line (isBlank_padding hindent depth) rfl tag⟩

/-- An element with its content, in each of its layouts. -/
theorem prints_elementLines (hinline : Inlines (inlineNodes children) (nodesTokens children))
    (hblock : Prints block (nodesTokens children)) :
    Prints (elementLines indent depth name attributes children false block)
      (.opens name :: nodesTokens children ++ [.closes name]) := by
  obtain ⟨texts, htexts, hreads⟩ := exists_attributeTexts hattributes
  have hpad := isBlank_padding hindent depth
  have close := reads_closeTag hname
  unfold elementLines
  rw [htexts]
  by_cases hfeed : texts.any hasLineFeed = true
  · -- An attribute of several lines: the tag is tall, and the content is never on its line.
    have opening := reads_tallOpening hindent hname hreads depth false
    simp only [bind, Except.bind, pure, Except.pure, hfeed, if_true, Bool.false_eq_true, if_false]
    cases children with
    | nil => exact ⟨_, rfl, opening.enclose (by simp [tallOpening]) close⟩
    | cons n rest =>
      rw [List.isEmpty_cons, if_neg Bool.false_ne_true]
      refine prints_contentLines hpad hname opening ?_ hinline hblock
      intro s hs
      cases hs
  · have opening := reads_startTag hname hreads false
    simp only [bind, Except.bind, pure, Except.pure, hfeed, Bool.false_eq_true, if_false]
    cases children with
    | nil => exact ⟨_, rfl, (reads_line hpad rfl opening).enclose (by simp) close⟩
    | cons n rest =>
      rw [List.isEmpty_cons, if_neg Bool.false_ne_true]
      refine prints_contentLines hpad hname (reads_line hpad rfl opening) ?_ hinline hblock
      intro s hs
      cases hs
      exact opening

end Elements

end Layouts

/-! ### Templates in print -/

/-- Plain text between braces is no token. -/
theorem reads_braced {s : String} (h : isPlain s = true) :
    Reads .outside (braced s).toList .outside [] := by
  rw [toList_braced]
  exact (reads_expression (isPlain_iff.1 h)).afterStep rfl

/-- A tag in braces that starts with a sign and a word. -/
theorem reads_signed {s : String} (word : String) (hword : Reads .brace word.toList .expression [])
    (h : isPlain s = true) : Reads .outside (braced (word ++ s)).toList .outside [] := by
  have close : Reads .expression ['\x7d'] .outside [] := rfl
  have text := (close.after (reads_plain rfl (isPlain_iff.1 h))).after hword
  rw [toList_braced, String.toList_append, List.append_assoc]
  exact text.afterStep rfl

/-- The head of a block, which starts with a word that tells its kind. -/
theorem reads_blockHead {s : String} {t : Token} (word : String)
    (hword : Reads .brace word.toList (.block word.toList) [])
    (hkind : ∀ rest, blockToken? (word.toList ++ rest) = some t) (h : isPlain s = true) :
    Reads .outside (braced (word ++ s)).toList .outside [t] := by
  obtain ⟨rest, hrest⟩ := reads_head (isPlain_iff.1 h) word.toList
  have close : Reads (.block (word.toList ++ rest)) ['\x7d'] .outside
      (blockToken? (word.toList ++ rest)).toList :=
    Prod.ext rfl (List.append_nil _)
  rw [hkind] at close
  have text := (close.after hrest).after hword
  rw [toList_braced, String.toList_append, List.append_assoc]
  exact text.afterStep rfl

/-- The word in front of a condition, and the token that it makes. -/
inductive Opener : String → Token → Prop where
  | first : Opener "#if" .ifOpens
  | later : Opener ":else if" .elseIf

/-- The head of a branch is read as its token. -/
theorem Opener.reads {opener condition : String} {t : Token} (ho : Opener opener t)
    (h : isPlain condition = true) :
    Reads .outside (braced s!"{opener} {condition}").toList .outside [t] := by
  cases ho with
  | first => exact reads_blockHead "#if " rfl (fun _ => rfl) h
  | later => exact reads_blockHead ":else if " rfl (fun _ => rfl) h

/-- The head of a list is read as its token. -/
theorem reads_eachHead {expression item : String} {index key : Option String}
    (hexpression : isPlain expression = true) (hitem : isPlain item = true)
    (hindex : index.all isPlain = true) (hkey : key.all isPlain = true) :
    Reads .outside (eachHead expression item index key).toList .outside [.eachOpens] := by
  have plain {o : Option String} (ho : o.all isPlain = true) {s : String}
      (hs : nonEmpty? o = some s) : isPlain s = true := by
    unfold nonEmpty? at hs
    split at hs
    · cases hs
    · simpa [hs] using ho
  have comma : isPlain ", " = true := rfl
  have bracket : isPlain " (" = true := rfl
  have closing : isPlain ")" = true := rfl
  -- The parts behind the name of the item hold no marks either.
  have tail (rest : String) (hrest : isPlain rest = true) :
      Reads .outside (braced ("#each " ++ (expression ++ (" as " ++ (item ++ rest))))).toList
        .outside [.eachOpens] := by
    refine reads_blockHead "#each " rfl (fun _ => rfl) ?_
    rw [isPlain_append, isPlain_append, isPlain_append, hexpression, hitem, hrest]
    rfl
  unfold eachHead
  simp only [toString, String.append_assoc]
  cases hi : nonEmpty? index with
  | none =>
    cases hk : nonEmpty? key with
    | none => exact tail _ rfl
    | some k => exact tail _ (by simp [isPlain_append, plain hkey hk, bracket, closing])
  | some i =>
    cases hk : nonEmpty? key with
    | none => exact tail _ (by simp [isPlain_append, plain hindex hi, comma])
    | some k =>
      refine tail _ ?_
      simp [isPlain_append, plain hindex hi, plain hkey hk, comma, bracket, closing]

section Templates

/-- One line is read like its text. -/
theorem inlines_singleLine {s : String} {ts : List Token}
    (h : Reads .outside s.toList .outside ts) : Inlines (.ok (singleLine? s)) ts := by
  refine ⟨_, rfl, ?_⟩
  intro t ht
  unfold singleLine? at ht
  split at ht
  · cases ht
  · cases ht
    exact h

mutual

/-- Within a line, a node is read as its tokens. -/
theorem inlines_node (n : TemplateNode) (h : nodePrintable n = true) :
    Inlines (inlineNode n) (nodeTokens n) := by
  cases n with
  | text s => exact inlines_singleLine (reads_plain rfl (isPlain_iff.1 h))
  | expression e => exact inlines_singleLine (reads_braced h)
  | html e => exact inlines_singleLine (reads_signed "@html " rfl h)
  | render e => exact inlines_singleLine (reads_signed "@render " rfl h)
  | element tag attributes children isVoid =>
    simp only [nodePrintable, Bool.and_eq_true] at h
    obtain ⟨⟨⟨hname, hattributes⟩, -⟩, hchildren⟩ := h
    cases isVoid with
    | true => exact ⟨none, rfl, nofun⟩
    | false =>
      obtain ⟨texts, htexts, hreads⟩ := exists_attributeTexts hattributes
      obtain ⟨content, hcontent, hread⟩ := inlines_nodes children hchildren
      unfold inlineNode inlineAttributes
      rw [htexts, hcontent]
      -- A line feed in an attribute keeps the element from going on one line.
      by_cases hfeed : texts.any hasLineFeed = true
      · simp only [bind, Except.bind, pure, Except.pure, hfeed, if_true]
        exact ⟨none, rfl, nofun⟩
      · simp only [bind, Except.bind, pure, Except.pure, hfeed]
        refine ⟨_, rfl, ?_⟩
        intro s hs
        obtain ⟨c, hc, rfl⟩ := Option.map_eq_some_iff.1 hs
        have tags := ((reads_startTag hname hreads false).append (hread c hc)).append
          (reads_closeTag hname)
        simpa [nodeTokens, tagEnd, openingToken] using tags
  | _ => exact ⟨none, rfl, nofun⟩

/-- So are nodes in a row. -/
theorem inlines_nodes (ns : List TemplateNode) (h : nodesPrintable ns = true) :
    Inlines (inlineNodes ns) (nodesTokens ns) := by
  cases ns with
  | nil =>
    refine ⟨_, rfl, ?_⟩
    intro s hs
    cases hs
    exact reads_nil _
  | cons n rest =>
    simp only [nodesPrintable, Bool.and_eq_true] at h
    obtain ⟨first, hfirst, hread⟩ := inlines_node n h.1
    obtain ⟨others, hothers, hreads⟩ := inlines_nodes rest h.2
    refine ⟨joined first others, ?_, ?_⟩
    · rw [inlineNodes, hfirst, hothers]
      rfl
    · intro s hs
      obtain ⟨s₁, h₁, hs⟩ := Option.bind_eq_some_iff.1 hs
      obtain ⟨s₂, h₂, hs⟩ := Option.bind_eq_some_iff.1 hs
      cases hs
      simpa [nodesTokens] using (hread s₁ h₁).append (hreads s₂ h₂)

end

section Blocks

variable {indent : String} (hindent : ∀ c ∈ indent.toList, isBlank c = true)
include hindent

/-- A padded text is read like the text. -/
theorem prints_padded {s : String} {ts : List Token} (depth : Nat)
    (h : Reads .outside s.toList .outside ts) : Prints (.ok (padded indent depth s)) ts :=
  ⟨_, rfl, reads_padded hindent depth h⟩

/-- A block with its head and its end. -/
theorem prints_block {head word : String} {t t' : Token} (depth : Nat)
    (hhead : Reads .outside head.toList .outside [t])
    (hword : Reads .outside (braced word).toList .outside [t'])
    {content : Except PrintError (List String)} {ts : List Token} (hcontent : Prints content ts) :
    Prints
      (do return padded indent depth head ++ (← content) ++ [padding indent depth ++ braced word])
      (t :: ts ++ [t']) := by
  obtain ⟨ls, rfl, hread⟩ := hcontent
  have close := reads_line (isBlank_padding hindent depth) rfl hword
  exact ⟨_, rfl, ((reads_padded hindent depth hhead).lines_append hread).lines_append close⟩

end Blocks

variable {indent : String}

mutual

/-- On lines of its own, a node is read as its tokens. -/
theorem prints_node (hindent : ∀ c ∈ indent.toList, isBlank c = true)
    (n : TemplateNode) (h : nodePrintable n = true) (depth : Nat) :
    Prints (nodeLines indent depth n) (nodeTokens n) := by
  cases n with
  | text s =>
    have text : Reads .outside (strip s).toList .outside [] :=
      (reads_plain rfl (isPlain_iff.1 h)).strip
    unfold nodeLines
    dsimp only
    split
    · exact ⟨[], rfl, reads_nil _⟩
    · exact ⟨_, rfl, reads_line (isBlank_padding hindent depth) rfl text⟩
  | expression e => exact prints_padded hindent depth (reads_braced h)
  | html e => exact prints_padded hindent depth (reads_signed "@html " rfl h)
  | render e => exact prints_padded hindent depth (reads_signed "@render " rfl h)
  | constant e => exact prints_padded hindent depth (reads_signed "@const " rfl h)
  | element tag attributes children isVoid =>
    simp only [nodePrintable, Bool.and_eq_true] at h
    obtain ⟨⟨⟨hname, hattributes⟩, hvoid⟩, hchildren⟩ := h
    cases isVoid with
    | true =>
      -- A void element is printable only without content.
      obtain rfl : children = [] := by simpa using hvoid
      exact prints_selfClosing hindent hname hattributes []
    | false =>
      exact prints_elementLines hindent hname hattributes children
        (inlines_nodes children hchildren) (prints_nodes hindent children hchildren (depth + 1))
  | component name attributes children =>
    simp only [nodePrintable, Bool.and_eq_true] at h
    obtain ⟨⟨hname, hattributes⟩, hchildren⟩ := h
    cases children with
    | nil => exact prints_selfClosing hindent hname hattributes []
    | cons n rest =>
      exact prints_elementLines hindent hname hattributes (n :: rest)
        (inlines_nodes (n :: rest) hchildren)
        (prints_nodes hindent (n :: rest) hchildren (depth + 1))
  | conditional branches elseChildren =>
    simp only [nodePrintable, Bool.and_eq_true] at h
    obtain ⟨⟨-, hbranches⟩, helse⟩ := h
    obtain ⟨shown, hshown, hread⟩ := prints_branches hindent branches hbranches depth .first
    obtain ⟨otherwise, hotherwise, hread'⟩ := prints_else hindent elseChildren helse depth
    -- Each branch prints its own head; one word closes them all.
    have word : Reads .outside (braced "/if").toList .outside [.ifCloses] := rfl
    have close := reads_line (isBlank_padding hindent depth) rfl word
    refine ⟨shown ++ otherwise ++ [padding indent depth ++ braced "/if"], ?_, ?_⟩
    · rw [nodeLines, hshown, hotherwise]
      rfl
    · exact (hread.lines_append hread').lines_append close
  | each expression item index key children =>
    simp only [nodePrintable, Bool.and_eq_true] at h
    obtain ⟨⟨⟨⟨hexpression, hitem⟩, hindex⟩, hkey⟩, hchildren⟩ := h
    have head := reads_eachHead hexpression hitem hindex hkey
    have word : Reads .outside (braced "/each").toList .outside [.eachCloses] := rfl
    exact prints_block hindent depth head word (prints_nodes hindent children hchildren (depth + 1))
  | snippet name parameters children =>
    simp only [nodePrintable, Bool.and_eq_true] at h
    obtain ⟨⟨hname, hparameters⟩, hchildren⟩ := h
    have head : Reads .outside (braced s!"#snippet {name}({parameters})").toList .outside
        [.snippetOpens] := by
      simp only [toString, String.append_assoc]
      refine reads_blockHead "#snippet " rfl (fun _ => rfl) ?_
      rw [isPlain_append, isPlain_append, isPlain_append, hname, hparameters]
      rfl
    have word : Reads .outside (braced "/snippet").toList .outside [.snippetCloses] := rfl
    exact prints_block hindent depth head word (prints_nodes hindent children hchildren (depth + 1))
  | placeholder p => cases h
  | foreign kind => cases h

/-- So are nodes in a row. -/
theorem prints_nodes (hindent : ∀ c ∈ indent.toList, isBlank c = true)
    (ns : List TemplateNode) (h : nodesPrintable ns = true) (depth : Nat) :
    Prints (nodesLines indent depth ns) (nodesTokens ns) := by
  cases ns with
  | nil => exact ⟨[], rfl, reads_nil _⟩
  | cons n rest =>
    simp only [nodesPrintable, Bool.and_eq_true] at h
    obtain ⟨first, hfirst, hread⟩ := prints_node hindent n h.1 depth
    obtain ⟨others, hothers, hread'⟩ := prints_nodes hindent rest h.2 depth
    refine ⟨first ++ others, ?_, hread.lines_append hread'⟩
    rw [nodesLines, hfirst, hothers]
    rfl

/-- So are branches. -/
theorem prints_branches (hindent : ∀ c ∈ indent.toList, isBlank c = true)
    (bs : List IfBranch) (h : branchesPrintable bs = true) (depth : Nat)
    {opener : String} {t : Token} (ho : Opener opener t) :
    Prints (branchLines indent depth opener bs) (branchTokens t bs) := by
  cases bs with
  | nil => exact ⟨[], rfl, reads_nil _⟩
  | cons b rest =>
    obtain ⟨condition, children⟩ := b
    simp only [branchesPrintable, Bool.and_eq_true] at h
    obtain ⟨⟨hcondition, hchildren⟩, hrest⟩ := h
    obtain ⟨content, hcontent, hread⟩ := prints_nodes hindent children hchildren (depth + 1)
    obtain ⟨others, hothers, hread'⟩ := prints_branches hindent rest hrest depth .later
    have head := reads_padded hindent depth (ho.reads hcondition)
    refine ⟨_, ?_, (head.lines_append hread).lines_append hread'⟩
    rw [branchLines, hcontent, hothers]
    rfl

/-- So is the last branch. -/
theorem prints_else (hindent : ∀ c ∈ indent.toList, isBlank c = true)
    (content : Option (List TemplateNode)) (h : elsePrintable content = true) (depth : Nat) :
    Prints (elseLines indent depth content) (elseTokens content) := by
  cases content with
  | none => exact ⟨[], rfl, reads_nil _⟩
  | some children =>
    obtain ⟨lines, hlines, hread⟩ := prints_nodes hindent children h (depth + 1)
    have word : Reads .outside (braced ":else").toList .outside [.otherwise] := rfl
    have head := reads_line (isBlank_padding hindent depth) rfl word
    refine ⟨_, ?_, head.lines_append hread⟩
    rw [elseLines, hlines]
    rfl

end

/-- So is a whole template. -/
theorem prints_template (hindent : ∀ c ∈ indent.toList, isBlank c = true)
    (ns : List TemplateNode) (h : nodesPrintable ns = true) :
    Prints (templateLines indent ns) (nodesTokens ns) := by
  induction ns with
  | nil => exact ⟨[], rfl, reads_nil _⟩
  | cons n rest ih =>
    simp only [nodesPrintable, Bool.and_eq_true] at h
    obtain ⟨first, hfirst, hread⟩ := prints_node hindent n h.1 0
    obtain ⟨others, hothers, hread'⟩ := ih h.2
    -- Only the empty line behind a snippet tells a template from nodes at depth zero.
    have gap : Reads .outside (lineChars (if n.isSnippet && !rest.isEmpty then [""] else []))
        .outside [] := by
      split <;> rfl
    refine ⟨_, ?_, hread.lines_append (gap.lines_append hread')⟩
    rw [templateLines, hfirst, hothers, ← List.append_assoc]
    rfl

end Templates

/-- **Printed markup mirrors the template**, at every depth and with every width of a level: markup
without marks in its texts is printed, the tags and blocks read off its lines are those of the
template from the outside in and one after another, and each is closed inside the one that it was
opened in. -/
theorem print_mirrors_template {ns : List TemplateNode} (h : nodesPrintable ns = true)
    (width depth : Nat) :
    (∃ ls, nodesLines (String.ofList (List.replicate width ' ')) depth ns = .ok ls ∧
      scan .outside (lineChars ls) = (.outside, nodesTokens ns)) ∧
    (∃ ls, templateLines (String.ofList (List.replicate width ' ')) ns = .ok ls ∧
      scan .outside (lineChars ls) = (.outside, nodesTokens ns)) ∧
    isNested (nodesTokens ns) = true := by
  have hindent : ∀ c ∈ (String.ofList (List.replicate width ' ')).toList, isBlank c = true := by
    intro c hc
    rw [String.toList_ofList] at hc
    rw [List.eq_of_mem_replicate hc]
    rfl
  exact ⟨prints_nodes hindent ns h depth, prints_template hindent ns h, isNested_nodesTokens h⟩

/-- Markup that takes every layout: a tall opening tag, an element on one line, a void element, a
component instance with and without content, and blocks inside one another. -/
def orderMarkup : List TemplateNode :=
  [.snippet "row" "order"
      [.element "li" [⟨.static, "class", some "row\nwide"⟩, ⟨.bind, "value", some "value"⟩]
        [.element "b" [] [.text "No "] false, .expression "order.id"] false],
    .conditional
      [.mk "busy" [.component "Spinner" [⟨.spread, "", some "rest"⟩] []],
        .mk "failed" [.element "hr" [] [] true]]
      (some [.component "Panel" [⟨.event, "onclick", some "open"⟩]
        [.each "orders" "order" (some "i") (some "order.id") [.render "row(order)"]]])]

/-- Markup with blocks inside one another. -/
theorem print_mirrors_orderMarkup :
    nodesPrintable orderMarkup = true ∧
      (∃ ls, nodesLines (String.ofList (List.replicate 2 ' ')) 3 orderMarkup = .ok ls ∧
        scan .outside (lineChars ls) = (.outside, nodesTokens orderMarkup)) ∧
      nodesTokens orderMarkup
        = [.snippetOpens, .opens "li", .opens "b", .closes "b", .closes "li", .snippetCloses,
            .ifOpens, .stands "Spinner", .elseIf, .stands "hr", .otherwise, .opens "Panel",
            .eachOpens, .eachCloses, .closes "Panel", .ifCloses] :=
  have h : nodesPrintable orderMarkup = true := by decide +kernel
  ⟨h, (print_mirrors_template h 2 3).1, by decide +kernel⟩

end Sveltify.Svelte
