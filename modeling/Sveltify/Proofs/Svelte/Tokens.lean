import Sveltify.Svelte.Template.Printer

namespace Sveltify.Svelte

open Text

/-!
# The structure of markup, read off its text

Which tags and blocks a text opens and closes can be told character by character.

* `Token`: a tag, or the head or the end of a block;
* `Mode.step`, `scan`: reading a text; `Reads`: what it comes to. One text after another is read one
  after another (`Reads.append`);
* `Mode.pause`: what a blank does. A second blank does nothing more, and all blanks do the same, so
  that blanks at the ends of a text do not count (`Reads.strip`), nor does the way its lines are
  indented (`Reads.padLines`);
* `reads_plain`: text without marks adds nothing.
-/

/-- A tag, or the head or the end of a block. -/
inductive Token where
  | opens (tag : String)
  | stands (tag : String)
  | closes (tag : String)
  | ifOpens
  | elseIf
  | otherwise
  | ifCloses
  | eachOpens
  | eachCloses
  | snippetOpens
  | snippetCloses
deriving Repr, DecidableEq

/-- The words that tell the heads and the ends of blocks, each in front of those that it is longer
than. -/
def blockWords : List (String × Token) :=
  [("#if ", .ifOpens), (":else if ", .elseIf), (":else", .otherwise), ("/if", .ifCloses),
   ("#each ", .eachOpens), ("/each", .eachCloses),
   ("#snippet ", .snippetOpens), ("/snippet", .snippetCloses)]

/-- The head or the end of a block, by the text in its braces. -/
def blockToken? (head : List Char) : Option Token :=
  (blockWords.find? fun w => w.1.toList.isPrefixOf head).map Prod.snd

/-- Where in a text the next character stands. -/
inductive Mode where
  | outside
  /-- Right behind `<`. -/
  | angle
  /-- In the name of an opening tag. -/
  | opening (name : List Char)
  /-- In an opening tag, behind its name; right behind a slash? -/
  | tag (name : List Char) (isSlashed : Bool)
  /-- In the quotation marks of an attribute. -/
  | quoted (name : List Char)
  /-- In the braces of an attribute. -/
  | value (name : List Char)
  /-- In the name of a closing tag. -/
  | closing (name : List Char)
  /-- Right behind an opening brace. -/
  | brace
  /-- In the braces around an expression. -/
  | expression
  /-- In the head or the end of a block, which has started like this. -/
  | block (head : List Char)
deriving Repr, DecidableEq

namespace Mode

/-- A blank ends the name of a tag, and parts the words of the head of a block. -/
def pause : Mode → Mode
  | .opening name => .tag name false
  | .block head => if head.getLast? = some ' ' then .block head else .block (head ++ [' '])
  | m => m

/-- What a character does that is no blank. -/
def advance : Mode → Char → Mode × List Token
  | .outside, c =>
    if c = '<' then (.angle, []) else if c = '\x7b' then (.brace, []) else (.outside, [])
  | .angle, c => if c = '/' then (.closing [], []) else (.opening [c], [])
  | .opening name, c =>
    if c = '>' then (.outside, [.opens (String.ofList name)])
    else if c = '/' then (.tag name true, [])
    else (.opening (name ++ [c]), [])
  | .tag name isSlashed, c =>
    if c = '>' then
      (.outside,
        [if isSlashed then .stands (String.ofList name) else .opens (String.ofList name)])
    else if c = '"' then (.quoted name, [])
    else if c = '\x7b' then (.value name, [])
    else (.tag name (c == '/'), [])
  | .quoted name, c => if c = '"' then (.tag name false, []) else (.quoted name, [])
  | .value name, c => if c = '\x7d' then (.tag name false, []) else (.value name, [])
  | .closing name, c =>
    if c = '>' then (.outside, [.closes (String.ofList name)]) else (.closing (name ++ [c]), [])
  | .brace, c =>
    if c = '\x7d' then (.outside, [])
    else if c = '#' ∨ c = ':' ∨ c = '/' then (.block [c], [])
    else (.expression, [])
  | .expression, c => if c = '\x7d' then (.outside, []) else (.expression, [])
  | .block head, c =>
    if c = '\x7d' then (.outside, (blockToken? head).toList) else (.block (head ++ [c]), [])

/-- What a character does. -/
def step (m : Mode) (c : Char) : Mode × List Token :=
  if isBlank c then (m.pause, []) else m.advance c

end Mode

/-- Read a text: where it ends, and the tokens in it. -/
def scan (m : Mode) : List Char → Mode × List Token
  | [] => (m, [])
  | c :: cs => ((scan (m.step c).1 cs).1, (m.step c).2 ++ (scan (m.step c).1 cs).2)

/-- Lines as one text, each with a line feed behind it. -/
def lineChars (ls : List String) : List Char := ls.flatMap fun l => l.toList ++ ['\n']

/-- The text leads from one place to another and has these tokens. -/
def Reads (m : Mode) (cs : List Char) (m' : Mode) (ts : List Token) : Prop :=
  scan m cs = (m', ts)

instance (m : Mode) (cs : List Char) (m' : Mode) (ts : List Token) : Decidable (Reads m cs m' ts) :=
  inferInstanceAs (Decidable (_ = _))

variable {m m₁ m' : Mode} {cs cs' : List Char} {ts ts' : List Token}

theorem reads_nil (m : Mode) : Reads m [] m [] := rfl

theorem Reads.cons {c : Char} (h : m.step c = (m₁, ts)) (h' : Reads m₁ cs m' ts') :
    Reads m (c :: cs) m' (ts ++ ts') := by
  unfold Reads at h' ⊢
  rw [scan, h, h']

/-- One text after another. -/
theorem Reads.append (h : Reads m cs m₁ ts) (h' : Reads m₁ cs' m' ts') :
    Reads m (cs ++ cs') m' (ts ++ ts') := by
  induction cs generalizing m ts with
  | nil =>
    cases h
    exact h'
  | cons c cs ih =>
    obtain ⟨hmode, htokens⟩ := Prod.mk.inj h
    subst htokens
    rw [List.append_assoc]
    exact .cons rfl (ih (Prod.ext hmode rfl))

/-- A text in two parts is scanned part by part. -/
theorem scan_append (m : Mode) (cs cs' : List Char) :
    scan m (cs ++ cs')
      = ((scan (scan m cs).1 cs').1, (scan m cs).2 ++ (scan (scan m cs).1 cs').2) := by
  have h : Reads m cs (scan m cs).1 (scan m cs).2 := rfl
  exact h.append rfl

/-- A text without tokens goes before. -/
theorem Reads.after (h' : Reads m₁ cs' m' ts) (h : Reads m cs m₁ []) : Reads m (cs ++ cs') m' ts :=
  h.append h'

/-- A character without tokens goes before. -/
theorem Reads.afterStep {c : Char} (h' : Reads m₁ cs m' ts) (h : m.step c = (m₁, [])) :
    Reads m (c :: cs) m' ts :=
  .cons h h'

/-! ### Blanks -/

theorem Mode.pause_pause (m : Mode) : m.pause.pause = m.pause := by
  cases m with
  | block head =>
    by_cases h : head.getLast? = some ' '
    · simp [pause, h]
    · simp [pause, h]
  | _ => rfl

/-- A blank is a pause. -/
theorem Mode.step_blank {c : Char} (h : isBlank c = true) (m : Mode) :
    m.step c = (m.pause, []) := by
  rw [step, if_pos h]

theorem Mode.eq_outside_of_pause (h : m.pause = .outside) : m = .outside := by
  cases m with
  | outside => rfl
  | block head =>
    by_cases hlast : head.getLast? = some ' '
    · simp [pause, hlast] at h
    · simp [pause, hlast] at h
  | _ => cases h

/-- Many blanks do what one does. -/
theorem scan_blanks (h : ∀ c ∈ cs, isBlank c = true) (m : Mode) :
    scan m cs = (if cs = [] then m else m.pause, []) := by
  induction cs generalizing m with
  | nil => rfl
  | cons c cs ih =>
    rw [scan, Mode.step_blank (h c List.mem_cons_self),
      ih (fun d hd => h d (List.mem_cons_of_mem _ hd)), Mode.pause_pause]
    simp

/-- Blanks do not count where a blank does nothing. -/
theorem reads_blanks (hm : m.pause = m) (h : ∀ c ∈ cs, isBlank c = true) : Reads m cs m [] := by
  unfold Reads
  rw [scan_blanks h, hm, ite_self]

/-- Blanks at the end do not count, if they end outside. -/
theorem Reads.of_append_blanks {blanks : List Char} (h : Reads m (cs ++ blanks) .outside ts)
    (hblanks : ∀ c ∈ blanks, isBlank c = true) : Reads m cs .outside ts := by
  unfold Reads at h ⊢
  rw [scan_append, scan_blanks hblanks, List.append_nil] at h
  obtain ⟨hmode, htokens⟩ := Prod.mk.inj h
  refine Prod.ext ?_ htokens
  by_cases hnil : blanks = []
  · rwa [if_pos hnil] at hmode
  · rw [if_neg hnil] at hmode
    exact Mode.eq_outside_of_pause hmode

/-- Blanks in front do not count where a blank does nothing. -/
theorem reads_blanks_append {blanks : List Char} (hm : m.pause = m)
    (hblanks : ∀ c ∈ blanks, isBlank c = true) :
    Reads m (blanks ++ cs) m' ts ↔ Reads m cs m' ts := by
  unfold Reads
  rw [scan_append, reads_blanks hm hblanks, List.nil_append]

/-- Blanks at the ends of a text do not count. -/
theorem Reads.strip {s : String} (h : Reads .outside s.toList .outside ts) :
    Reads .outside (Text.strip s).toList .outside ts := by
  have blanks {c : Char} {cs : List Char} (hc : c ∈ cs.takeWhile isBlank) : isBlank c = true :=
    List.all_eq_true.1 List.all_takeWhile c hc
  -- The blanks in front go first; what is left is parted from the blanks behind it.
  rw [← List.takeWhile_append_dropWhile (p := isBlank) (l := s.toList),
    reads_blanks_append rfl fun c hc => blanks hc] at h
  rw [Text.strip, stripOf, String.toList_ofList, dropEndWhile]
  have parted : (s.toList.dropWhile isBlank) =
      ((s.toList.dropWhile isBlank).reverse.dropWhile isBlank).reverse ++
        ((s.toList.dropWhile isBlank).reverse.takeWhile isBlank).reverse := by
    rw [← List.reverse_append, List.takeWhile_append_dropWhile, List.reverse_reverse]
  rw [parted] at h
  exact h.of_append_blanks fun c hc => blanks (List.mem_reverse.1 hc)

/-! ### Lines -/

@[simp] theorem lineChars_nil : lineChars [] = [] := rfl

@[simp] theorem lineChars_cons (l : String) (ls : List String) :
    lineChars (l :: ls) = l.toList ++ '\n' :: lineChars ls := by
  simp [lineChars]

@[simp] theorem lineChars_append (ls ls' : List String) :
    lineChars (ls ++ ls') = lineChars ls ++ lineChars ls' := by
  simp [lineChars]

/-- Lines after lines. -/
theorem Reads.lines_append {ls ls' : List String} (h : Reads m (lineChars ls) m₁ ts)
    (h' : Reads m₁ (lineChars ls') m' ts') : Reads m (lineChars (ls ++ ls')) m' (ts ++ ts') := by
  rw [lineChars_append]
  exact h.append h'

theorem step_lineFeed (m : Mode) : m.step '\n' = (m.pause, []) := Mode.step_blank rfl m

section Padding

variable {pad : String} (hpad : ∀ c ∈ pad.toList, isBlank c = true)
include hpad

/-- The indentation of a line does not count where a blank does nothing. -/
theorem reads_padLine (hm : m.pause = m) (line : List Char) :
    Reads m ((padLine pad (String.ofList line)).toList ++ cs) m' ts ↔
      Reads m (line ++ cs) m' ts := by
  by_cases hline : line = []
  · simp [padLine, hline]
  · have : (String.ofList line).isEmpty = false := by simpa using hline
    rw [padLine, this, if_neg Bool.false_ne_true, String.toList_append, String.toList_ofList,
      List.append_assoc, reads_blanks_append hm hpad]

/-- A text reads as its lines do, all but the first of them indented. -/
theorem reads_lines (h : Reads m cs m' ts) {first : List Char} {rest : List (List Char)}
    (hsplit : splitOn '\n' cs = first :: rest) :
    Reads m (first ++ '\n' :: lineChars (padLines pad (rest.map String.ofList))) m'.pause ts := by
  induction cs generalizing m ts first rest with
  | nil =>
    obtain ⟨rfl, rfl⟩ := Prod.mk.inj h
    cases hsplit
    exact .cons (step_lineFeed m) (reads_nil _)
  | cons c cs ih =>
    obtain ⟨hmode, rfl⟩ := Prod.mk.inj h
    obtain ⟨part, parts, hparts⟩ := List.exists_cons_of_ne_nil (splitOn_ne_nil '\n' cs)
    rw [splitOn, hparts] at hsplit
    by_cases hc : c = '\n'
    · -- The rest is read behind a blank, where the indentation of its first line does not count.
      rw [if_pos hc] at hsplit
      cases hsplit
      subst hc
      refine .cons rfl ?_
      simp only [List.map_cons, padLines, lineChars_cons]
      exact (reads_padLine hpad m.pause_pause _).2 (ih (Prod.ext hmode rfl) hparts)
    · rw [if_neg hc] at hsplit
      cases hsplit
      exact .cons rfl (ih (Prod.ext hmode rfl) hparts)

/-- The way the lines of a text are indented does not count. -/
theorem Reads.padLines {s : String} (h : Reads m s.toList m' ts) (hm : m.pause = m) :
    Reads m (lineChars (Text.padLines pad (lines s))) m'.pause ts := by
  obtain ⟨first, rest, hsplit⟩ := List.exists_cons_of_ne_nil (splitOn_ne_nil '\n' s.toList)
  have hlines : lines s = String.ofList first :: rest.map String.ofList := by
    rw [lines, parts, hsplit, List.map_cons]
  rw [hlines, Text.padLines, List.map_cons, lineChars_cons]
  exact (reads_padLine hpad hm first).2 (reads_lines hpad h hsplit)

end Padding

/-- What is put behind the last of some lines stands in front of the last line feed. -/
theorem lineChars_enclose {ls : List String} (h : ls ≠ []) (s : String) :
    ∃ cs, lineChars ls = cs ++ ['\n'] ∧ lineChars (enclose "" s ls) = cs ++ s.toList ++ ['\n'] := by
  obtain ⟨front, last, rfl⟩ := List.eq_nil_or_concat ls |>.resolve_left h
  refine ⟨lineChars front ++ last.toList, by simp, ?_⟩
  cases front with
  | nil => simp [enclose]
  | cons first rest =>
    rw [List.concat_eq_append, List.cons_append]
    have hrest : rest ++ [last] ≠ [] := List.concat_ne_nil last rest
    rw [enclose.eq_3 _ _ _ _ hrest]
    simp

/-- A line behind a block. -/
theorem Reads.enclose {ls : List String} {s : String} (hne : ls ≠ [])
    (h : Reads m (lineChars ls) .outside ts) (h' : Reads .outside s.toList .outside ts') :
    Reads m (lineChars (Text.enclose "" s ls)) .outside (ts ++ ts') := by
  obtain ⟨cs, hchars, henclosed⟩ := lineChars_enclose hne s
  rw [hchars] at h
  have blank : ∀ c ∈ ['\n'], isBlank c = true := by
    intro c hc
    rw [List.mem_singleton.1 hc]
    rfl
  have text : Reads m (cs ++ s.toList) .outside (ts ++ ts') :=
    (h.of_append_blanks blank).append h'
  have feed : Reads .outside ['\n'] .outside [] := rfl
  rw [henclosed, ← List.append_nil (ts ++ ts')]
  exact text.append feed

/-! ### Text without marks -/

/-- The characters with a meaning of their own in markup. -/
def marks : List Char := ['<', '>', '\x7b', '\x7d', '"', '#', ':', '/', '@']

/-- The text is free of marks. -/
def isPlain (s : String) : Bool := s.toList.all fun c => !marks.contains c

/-- The text is a name: it is not empty, and free of marks and blanks. -/
def isName (s : String) : Bool := !s.isEmpty && isPlain s && s.toList.all fun c => !isBlank c

/-- Is this a place from which text without marks does not lead away? -/
def Mode.keepsText : Mode → Bool
  | .outside | .tag _ false | .quoted _ | .value _ | .expression => true
  | _ => false

theorem isPlain_iff {s : String} : isPlain s = true ↔ ∀ c ∈ s.toList, c ∉ marks := by
  simp [isPlain]

/-- Where text is kept, plain characters are passed over. -/
theorem Mode.step_of_keepsText {c : Char} (hm : m.keepsText = true) (hc : c ∉ marks) :
    m.step c = (m, []) := by
  simp only [marks, List.mem_cons, List.not_mem_nil, or_false, not_or] at hc
  unfold step
  cases m with
  | tag name isSlashed =>
    cases isSlashed with
    | true => cases hm
    | false => simp [pause, advance, hc]
  | outside => simp [pause, advance, hc]
  | quoted name => simp [pause, advance, hc]
  | value name => simp [pause, advance, hc]
  | expression => simp [pause, advance, hc]
  | _ => cases hm

/-- Text without marks adds nothing. -/
theorem reads_plain (hm : m.keepsText = true) (h : ∀ c ∈ cs, c ∉ marks) : Reads m cs m [] := by
  induction cs with
  | nil => exact reads_nil m
  | cons c cs ih =>
    have rest := ih fun d hd => h d (List.mem_cons_of_mem _ hd)
    exact rest.afterStep (m.step_of_keepsText hm (h c List.mem_cons_self))

/-- The rest of a name, where a name is read. -/
theorem reads_name (h : ∀ c ∈ cs, c ∉ marks ∧ isBlank c = false) (name : List Char) :
    Reads (.opening name) cs (.opening (name ++ cs)) [] ∧
      Reads (.closing name) cs (.closing (name ++ cs)) [] := by
  induction cs generalizing name with
  | nil =>
    rw [List.append_nil]
    exact ⟨reads_nil _, reads_nil _⟩
  | cons c cs ih =>
    obtain ⟨hmark, hblank⟩ := h c List.mem_cons_self
    simp only [marks, List.mem_cons, List.not_mem_nil, or_false, not_or] at hmark
    obtain ⟨opening, closing⟩ := ih (fun d hd => h d (List.mem_cons_of_mem _ hd)) (name ++ [c])
    rw [List.append_assoc] at opening closing
    refine ⟨opening.afterStep ?_, closing.afterStep ?_⟩
    · simp [Mode.step, Mode.advance, hblank, hmark]
    · simp [Mode.step, Mode.advance, hblank, hmark]

theorem isName_iff {s : String} :
    isName s = true ↔ s.toList ≠ [] ∧ ∀ c ∈ s.toList, c ∉ marks ∧ isBlank c = false := by
  simp [isName, isPlain, and_assoc, forall_and]

/-- The start of an opening tag. -/
theorem reads_tagName {s : String} (h : isName s = true) :
    Reads .outside ('<' :: s.toList) (.opening s.toList) [] := by
  obtain ⟨hne, hall⟩ := isName_iff.1 h
  obtain ⟨c, cs, hs⟩ := List.exists_cons_of_ne_nil hne
  rw [hs] at hall ⊢
  obtain ⟨hmark, hblank⟩ := hall c List.mem_cons_self
  simp only [marks, List.mem_cons, List.not_mem_nil, or_false, not_or] at hmark
  have rest := (reads_name (fun d hd => hall d (List.mem_cons_of_mem _ hd)) [c]).1
  have first : Mode.angle.step c = (.opening [c], []) := by
    simp [Mode.step, Mode.advance, hblank, hmark]
  exact (rest.afterStep first).afterStep rfl

/-- A closing tag is read as one token. -/
theorem reads_closeTag {s : String} (h : isName s = true) :
    Reads .outside (closeTag s).toList .outside [.closes s] := by
  have name := (reads_name (isName_iff.1 h).2 []).2
  have close : Reads (.closing s.toList) ['>'] .outside [.closes (String.ofList s.toList)] := rfl
  rw [String.ofList_toList] at close
  have text : (closeTag s).toList = '<' :: '/' :: (s.toList ++ ['>']) := by
    simp [closeTag, toString]
  rw [text]
  exact ((close.after name).afterStep rfl).afterStep rfl

/-- An opening tag ends, right behind its name or later. -/
theorem reads_tagEnd {name : List Char} (hm : m.pause = .tag name false) :
    Reads m ['>'] .outside [.opens (String.ofList name)] ∧
      Reads m [' ', '/', '>'] .outside [.stands (String.ofList name)] := by
  cases m with
  | opening n =>
    cases hm
    exact ⟨rfl, rfl⟩
  | tag n isSlashed =>
    cases hm
    exact ⟨rfl, rfl⟩
  | block head =>
    by_cases hlast : head.getLast? = some ' '
    · simp [Mode.pause, hlast] at hm
    · simp [Mode.pause, hlast] at hm
  | _ => cases hm

/-! ### Braces -/

/-- An expression is no token. -/
theorem reads_expression (h : ∀ c ∈ cs, c ∉ marks) :
    Reads .brace (cs ++ ['\x7d']) .outside [] := by
  induction cs with
  | nil => rfl
  | cons c cs ih =>
    have hrest : ∀ d ∈ cs, d ∉ marks := fun d hd => h d (List.mem_cons_of_mem _ hd)
    by_cases hblank : isBlank c = true
    · exact (ih hrest).afterStep (Mode.step_blank hblank _)
    · have hmark := h c List.mem_cons_self
      simp only [marks, List.mem_cons, List.not_mem_nil, or_false, not_or] at hmark
      have first : Mode.brace.step c = (.expression, []) := by
        simp [Mode.step, Mode.advance, hblank, hmark]
      have last : Reads .expression ['\x7d'] .outside [] := rfl
      exact (last.after (reads_plain rfl hrest)).afterStep first

/-- The head of a block grows. -/
theorem reads_head (h : ∀ c ∈ cs, c ∉ marks) (head : List Char) :
    ∃ rest, Reads (.block head) cs (.block (head ++ rest)) [] := by
  induction cs generalizing head with
  | nil => exact ⟨[], by rw [List.append_nil]; exact reads_nil _⟩
  | cons c cs ih =>
    have hrest : ∀ d ∈ cs, d ∉ marks := fun d hd => h d (List.mem_cons_of_mem _ hd)
    obtain ⟨more, first⟩ : ∃ more, Mode.step (.block head) c = (.block (head ++ more), []) := by
      have hmark := h c List.mem_cons_self
      simp only [marks, List.mem_cons, List.not_mem_nil, or_false, not_or] at hmark
      by_cases hblank : isBlank c = true
      · by_cases hlast : head.getLast? = some ' '
        · exact ⟨[], by simp [Mode.step, Mode.pause, hblank, hlast]⟩
        · exact ⟨[' '], by simp [Mode.step, Mode.pause, hblank, hlast]⟩
      · exact ⟨[c], by simp [Mode.step, Mode.advance, hblank, hmark]⟩
    obtain ⟨rest, hread⟩ := ih hrest (head ++ more)
    refine ⟨more ++ rest, ?_⟩
    rw [← List.append_assoc]
    exact hread.afterStep first

end Sveltify.Svelte
