import Mathlib.Data.List.Forall2
import Mathlib.Data.List.TakeWhile
import Sveltify.Proofs.Lines
import Sveltify.Proofs.Svelte.Printed

namespace Sveltify

/-!
# What line breaks add to a text

Running text in an element stands on one line if it is short, and else each text and each tag is put
on a line of its own. A line feed is a blank, so a line break shows as a space, also where there was
no blank between two texts.

* `collapse`: a text as it is shown, where a run of blanks counts as one space;
* `Meet`: two texts follow one another without a blank between them;
* `collapse_join_eq_iff`: texts are shown alike with and without spaces between them just if no two
  of them meet;
* `Phrase`: a text or a tag on a single line;
* `layouts_agree_iff`: the two layouts of phrases are shown alike just if no two of them meet.
-/

namespace Text

/-! ### Runs of blanks as one space -/

/-- What stands in front of a character: nothing but blanks, a letter, or blanks behind a letter. A
letter is any character that is no blank. -/
inductive Ahead where
  | nothing
  | letter
  | gap
deriving Repr, DecidableEq

namespace Ahead

/-- What stands in front of the next character behind a blank. -/
def pause : Ahead → Ahead
  | .nothing => .nothing
  | _ => .gap

/-- The space that is shown in front of a letter. -/
def space : Ahead → List Char
  | .gap => [' ']
  | _ => []

/-- What stands in front of the next character. -/
def next (m : Ahead) (c : Char) : Ahead := if isBlank c then m.pause else .letter

/-- What stands in front of the next character behind a text. -/
def past (m : Ahead) (cs : List Char) : Ahead := cs.foldl next m

/-- Two blanks are like one. -/
@[simp] theorem pause_pause (m : Ahead) : m.pause.pause = m.pause := by cases m <;> rfl

theorem next_blank {c : Char} (h : isBlank c = true) (m : Ahead) : m.next c = m.pause := if_pos h

theorem next_letter {c : Char} (h : isBlank c = false) (m : Ahead) : m.next c = .letter :=
  if_neg (by simp [h])

@[simp] theorem past_nil (m : Ahead) : m.past [] = m := rfl

@[simp] theorem past_cons (m : Ahead) (c : Char) (cs : List Char) :
    m.past (c :: cs) = (m.next c).past cs := rfl

theorem past_append (m : Ahead) (cs ds : List Char) : m.past (cs ++ ds) = (m.past cs).past ds :=
  List.foldl_append

/-- Behind blanks it is as behind one of them. -/
theorem past_blanks {cs : List Char} (h : ∀ c ∈ cs, isBlank c = true) (hne : cs ≠ [])
    (m : Ahead) : m.past cs = m.pause := by
  induction cs generalizing m with
  | nil => exact absurd rfl hne
  | cons c cs ih =>
    rw [past_cons, next_blank (h c (by simp))]
    by_cases hcs : cs = []
    · rw [hcs, past_nil]
    · rw [ih (fun d hd => h d (by simp [hd])) hcs, pause_pause]

/-- Blanks at the end make no difference to a pause. -/
theorem pause_past_blanks {cs : List Char} (h : ∀ c ∈ cs, isBlank c = true) (m : Ahead) :
    (m.past cs).pause = m.pause := by
  by_cases hcs : cs = []
  · rw [hcs, past_nil]
  · rw [past_blanks h hcs, pause_pause]

end Ahead

/-- The characters that are shown, given what stands in front of them. -/
def collapseFrom (m : Ahead) : List Char → List Char
  | [] => []
  | c :: cs =>
    if isBlank c then collapseFrom m.pause cs else m.space ++ c :: collapseFrom .letter cs

/-- The text with each run of blanks as one space, and without the blanks at its ends. -/
def collapse (s : String) : String := String.ofList (collapseFrom .nothing s.toList)

section Collapse

variable {m : Ahead} {cs ds : List Char} {c : Char}

@[simp] theorem collapseFrom_nil (m : Ahead) : collapseFrom m [] = [] := rfl

theorem collapseFrom_blank (h : isBlank c = true) :
    collapseFrom m (c :: cs) = collapseFrom m.pause cs :=
  if_pos h

theorem collapseFrom_letter (h : isBlank c = false) :
    collapseFrom m (c :: cs) = m.space ++ c :: collapseFrom .letter cs :=
  if_neg (by simp [h])

/-- A text in two parts, the second seen from the end of the first. -/
theorem collapseFrom_append (m : Ahead) (cs ds : List Char) :
    collapseFrom m (cs ++ ds) = collapseFrom m cs ++ collapseFrom (m.past cs) ds := by
  induction cs generalizing m with
  | nil => rfl
  | cons c cs ih =>
    cases hc : isBlank c with
    | true =>
      rw [List.cons_append, collapseFrom_blank hc, collapseFrom_blank hc, ih, Ahead.past_cons,
        Ahead.next_blank hc]
    | false =>
      rw [List.cons_append, collapseFrom_letter hc, collapseFrom_letter hc, ih, Ahead.past_cons,
        Ahead.next_letter hc, List.append_assoc, List.cons_append]

/-- Blanks show nothing by themselves. -/
theorem collapseFrom_blanks (h : ∀ c ∈ cs, isBlank c = true) (m : Ahead) :
    collapseFrom m cs = [] := by
  induction cs generalizing m with
  | nil => rfl
  | cons c cs ih => rw [collapseFrom_blank (h c (by simp)), ih fun d hd => h d (by simp [hd])]

/-- Blanks at the end are not shown. -/
theorem collapseFrom_append_blanks (h : ∀ c ∈ ds, isBlank c = true) (m : Ahead) (cs : List Char) :
    collapseFrom m (cs ++ ds) = collapseFrom m cs := by
  rw [collapseFrom_append, collapseFrom_blanks h, List.append_nil]

/-- Whether the blank behind each text stands between them or also behind the last does not
matter. -/
theorem collapseFrom_intercalate (hc : isBlank c = true) (m : Ahead) (texts : List (List Char)) :
    collapseFrom m ([c].intercalate texts) = collapseFrom m (texts.flatMap (· ++ [c])) := by
  induction texts generalizing m with
  | nil => rfl
  | cons x rest ih =>
    cases rest with
    | nil =>
      rw [List.intercalate_singleton, List.flatMap_singleton]
      exact (collapseFrom_append_blanks (by simpa using hc) m x).symm
    | cons y rest =>
      rw [List.intercalate_cons_cons, List.flatMap_cons, collapseFrom_append, ih,
        ← collapseFrom_append]

end Collapse

/-! ### Texts that are not blank -/

/-- A text that is not blank is shown from its first letter to its last: blanks are taken off its
ends. -/
structure IsCore (cs core : List Char) (front back : List Char) : Prop where
  parts : cs = front ++ core ++ back
  front : ∀ c ∈ front, isBlank c = true
  back : ∀ c ∈ back, isBlank c = true
  first : ∃ c rest, core = c :: rest ∧ isBlank c = false
  last : ∃ c rest, core = rest ++ [c] ∧ isBlank c = false

/-- The first letter of a text, and the blanks in front of it. -/
theorem exists_first_letter {cs : List Char} (h : ¬ ∀ c ∈ cs, isBlank c = true) :
    ∃ c rest, cs.dropWhile isBlank = c :: rest ∧ isBlank c = false := by
  cases hdrop : cs.dropWhile isBlank with
  | nil => exact absurd (List.dropWhile_eq_nil_iff.1 hdrop) h
  | cons c rest =>
    refine ⟨c, rest, rfl, ?_⟩
    have := List.head?_dropWhile_not isBlank cs
    simpa [hdrop] using this

/-- What is left without the blanks at both ends. -/
theorem isCore_strip {cs : List Char} (h : ¬ ∀ c ∈ cs, isBlank c = true) :
    IsCore cs (dropEndWhile isBlank (cs.dropWhile isBlank)) (cs.takeWhile isBlank)
      ((cs.dropWhile isBlank).reverse.takeWhile isBlank).reverse := by
  have blanks {ds : List Char} : ∀ c ∈ ds.takeWhile isBlank, isBlank c = true := fun c hc =>
    List.all_eq_true.1 List.all_takeWhile c hc
  have parted : cs.dropWhile isBlank =
      dropEndWhile isBlank (cs.dropWhile isBlank) ++
        ((cs.dropWhile isBlank).reverse.takeWhile isBlank).reverse := by
    rw [dropEndWhile, ← List.reverse_append, List.takeWhile_append_dropWhile, List.reverse_reverse]
  obtain ⟨c, rest, hdrop, hc⟩ := exists_first_letter h
  have some_letter : ¬ ∀ d ∈ (cs.dropWhile isBlank).reverse, isBlank d = true := by
    intro hall
    have := hall c (by simp [hdrop])
    simp [hc] at this
  refine ⟨?_, blanks, fun d hd => blanks d (List.mem_reverse.1 hd), ?_, ?_⟩
  · rw [List.append_assoc, ← parted, List.takeWhile_append_dropWhile]
  · -- The first letter is not among the blanks that are taken off the end.
    cases hcore : dropEndWhile isBlank (cs.dropWhile isBlank) with
    | nil =>
      rw [hcore, List.nil_append] at parted
      exact absurd (fun d hd => blanks d (by rwa [parted, List.reverse_reverse] at hd)) some_letter
    | cons d core =>
      rw [hcore, hdrop, List.cons_append] at parted
      exact ⟨d, core, rfl, (List.cons.inj parted).1 ▸ hc⟩
  · obtain ⟨d, front, hlast, hd⟩ := exists_first_letter some_letter
    exact ⟨d, front.reverse, by rw [dropEndWhile, hlast, List.reverse_cons], hd⟩

section Core

variable {cs core front back : List Char}

/-- The core is all that is seen, with a space if blanks stand in front. -/
theorem IsCore.collapseFrom_eq (h : IsCore cs core front back) (m : Ahead) :
    collapseFrom m cs = (m.past front).space ++ collapseFrom .nothing core := by
  obtain ⟨c, rest, rfl, hc⟩ := h.first
  rw [h.parts, collapseFrom_append_blanks h.back, collapseFrom_append,
    collapseFrom_blanks h.front, List.nil_append, collapseFrom_letter hc, collapseFrom_letter hc]
  rfl

/-- Behind a text that is not blank, only the blanks at its end count. -/
theorem IsCore.past_eq (h : IsCore cs core front back) (m : Ahead) :
    m.past cs = Ahead.letter.past back := by
  obtain ⟨c, rest, rfl, hc⟩ := h.last
  rw [h.parts, Ahead.past_append, Ahead.past_append, Ahead.past_append, Ahead.past_cons,
    Ahead.next_letter hc, Ahead.past_nil]

/-- Then a pause is a gap. -/
theorem IsCore.pause_past (h : IsCore cs core front back) (m : Ahead) :
    (m.past cs).pause = .gap := by
  rw [h.past_eq, Ahead.pause_past_blanks h.back]
  rfl

/-- Where blanks do nothing, a text that is not blank and has a blank behind it is shown without
the blanks at its ends. -/
theorem IsCore.collapseFrom_line (h : IsCore cs core front back) {m : Ahead} (hm : m.pause = m)
    {c : Char} (hc : isBlank c = true) (rest : List Char) :
    collapseFrom m (cs ++ c :: rest) =
      m.space ++ collapseFrom .nothing core ++ collapseFrom .gap rest := by
  have start : m.past front = m := by
    by_cases hfront : front = []
    · rw [hfront, Ahead.past_nil]
    · rw [Ahead.past_blanks h.front hfront, hm]
  rw [collapseFrom_append, h.collapseFrom_eq, start, collapseFrom_blank hc, h.pause_past]

end Core

/-! ### Texts that meet -/

/-- Is the first character a letter? -/
def startsTight (cs : List Char) : Bool := cs.head?.any fun c => !isBlank c

/-- Is the last character a letter? -/
def endsTight (cs : List Char) : Bool := cs.getLast?.any fun c => !isBlank c

/-- Two texts meet: there is nothing between them, and no blank where one ends and the other
starts. -/
def Meet (texts : List String) : Prop :=
  ∃ before x between y after, texts = before ++ x :: (between ++ y :: after) ∧
    (∀ t ∈ between, t = "") ∧ endsTight x.toList = true ∧ startsTight y.toList = true

/-- Do two texts meet, or the first with what stands in front of it? -/
def meetsFrom (m : Ahead) : List String → Bool
  | [] => false
  | x :: rest =>
    m == .letter && startsTight x.toList || meetsFrom (m.past x.toList) rest

/-- The first of the texts that is not empty starts with a letter. -/
def StartTight (texts : List String) : Prop :=
  ∃ between y after, texts = between ++ y :: after ∧ (∀ t ∈ between, t = "") ∧
    startsTight y.toList = true

/-- The first text starts tight, or it is empty. -/
theorem startTight_cons {x : String} {rest : List String} :
    StartTight (x :: rest) ↔ startsTight x.toList = true ∨ x = "" ∧ StartTight rest := by
  constructor
  · rintro ⟨between, y, after, hparts, hbetween, hy⟩
    cases between with
    | nil =>
      cases hparts
      exact .inl hy
    | cons t between =>
      cases hparts
      exact .inr ⟨hbetween _ (by simp), between, y, after, rfl,
        fun u hu => hbetween u (by simp [hu]), hy⟩
  · rintro (hx | ⟨rfl, between, y, after, rfl, hbetween, hy⟩)
    · exact ⟨[], x, rest, rfl, by simp, hx⟩
    · exact ⟨"" :: between, y, after, rfl, by simpa using hbetween, hy⟩

/-- The first two texts meet, or later ones do. -/
theorem meet_cons {x : String} {rest : List String} :
    Meet (x :: rest) ↔ endsTight x.toList = true ∧ StartTight rest ∨ Meet rest := by
  constructor
  · rintro ⟨before, y, between, z, after, hparts, hbetween, hy, hz⟩
    cases before with
    | nil =>
      cases hparts
      exact .inl ⟨hy, between, z, after, rfl, hbetween, hz⟩
    | cons t before =>
      cases hparts
      exact .inr ⟨before, y, between, z, after, rfl, hbetween, hy, hz⟩
  · rintro (⟨hx, between, y, after, rfl, hbetween, hy⟩ |
      ⟨before, y, between, z, after, rfl, hbetween, hy, hz⟩)
    · exact ⟨[], x, between, y, after, rfl, hbetween, hx, hy⟩
    · exact ⟨x :: before, y, between, z, after, rfl, hbetween, hy, hz⟩

/-- A text ends in a letter, or it is empty behind one. -/
theorem past_eq_letter_iff {m : Ahead} {cs : List Char} :
    m.past cs = .letter ↔ endsTight cs = true ∨ cs = [] ∧ m = .letter := by
  rcases List.eq_nil_or_concat cs with rfl | ⟨rest, c, rfl⟩
  · simp [endsTight]
  · rw [List.concat_eq_append, Ahead.past_append, Ahead.past_cons, Ahead.past_nil]
    cases hc : isBlank c with
    | true =>
      have : (m.past rest).pause ≠ .letter := by cases m.past rest <;> decide
      simp [Ahead.next_blank hc, this, endsTight, hc]
    | false => simp [Ahead.next_letter hc, endsTight, hc]

/-- The test for texts that meet is right. -/
theorem meetsFrom_iff {m : Ahead} {texts : List String} :
    meetsFrom m texts = true ↔ m = .letter ∧ StartTight texts ∨ Meet texts := by
  induction texts generalizing m with
  | nil => simp [meetsFrom, StartTight, Meet]
  | cons x rest ih =>
    rw [meetsFrom, Bool.or_eq_true, ih, past_eq_letter_iff, startTight_cons, meet_cons,
      Bool.and_eq_true, beq_iff_eq, String.toList_eq_nil_iff]
    grind

instance (texts : List String) : Decidable (Meet texts) :=
  decidable_of_iff (meetsFrom .nothing texts = true) (by simp [meetsFrom_iff])

/-! ### Texts with and without spaces between them -/

/-- Blank text does not start tight. -/
theorem startsTight_of_blanks {cs : List Char} (h : ∀ c ∈ cs, isBlank c = true) :
    startsTight cs = false := by
  cases cs with
  | nil => rfl
  | cons c cs => simp [startsTight, h c (by simp)]

/-- **Spaces between texts.** They make a difference just where two texts meet. -/
theorem collapseFrom_flatMap_eq_iff (m : Ahead) (texts : List String) :
    collapseFrom m (texts.flatMap String.toList) =
        collapseFrom m.pause (texts.flatMap fun t => t.toList ++ [' ']) ↔
      meetsFrom m texts = false := by
  induction texts generalizing m with
  | nil => simp [meetsFrom]
  | cons x rest ih =>
    have space : isBlank ' ' = true := rfl
    rw [List.flatMap_cons, List.flatMap_cons, meetsFrom, List.append_assoc, List.singleton_append,
      Bool.or_eq_false_iff, ← ih]
    by_cases hx : ∀ c ∈ x.toList, isBlank c = true
    · -- A blank text does what the space behind it does.
      rw [collapseFrom_append, collapseFrom_blanks hx, collapseFrom_append,
        collapseFrom_blanks hx, collapseFrom_blank space, Ahead.pause_past_blanks hx,
        Ahead.pause_past_blanks hx, Ahead.pause_pause, startsTight_of_blanks hx]
      simp
    · have hcore := isCore_strip hx
      rw [collapseFrom_append, hcore.collapseFrom_eq,
        hcore.collapseFrom_line (Ahead.pause_pause m) space, hcore.pause_past]
      obtain ⟨c, core, hfirst, hc⟩ := hcore.first
      by_cases hmeet : m = .letter ∧ startsTight x.toList = true
      · -- One text goes on with a letter, the other one with a space.
        obtain ⟨rfl, htight⟩ := hmeet
        have front : x.toList.takeWhile isBlank = [] := by
          cases hchars : x.toList with
          | nil => rfl
          | cons d ds =>
            have hd : isBlank d = false := by simpa [startsTight, hchars] using htight
            simp [hd]
        have differ : c ≠ ' ' := by
          rintro rfl
          cases hc
        rw [front, hfirst, collapseFrom_letter hc]
        simp [Ahead.space, Ahead.pause, htight, differ]
      · have same : (m.past (x.toList.takeWhile isBlank)).space = m.pause.space := by
          by_cases hfront : x.toList.takeWhile isBlank = []
          · have loose : m ≠ .letter := by
              rintro rfl
              refine hmeet ⟨rfl, ?_⟩
              rw [hcore.parts, hfront, hfirst]
              simp [startsTight, hc]
            rw [hfront, Ahead.past_nil]
            cases m with
            | nothing => rfl
            | letter => exact absurd rfl loose
            | gap => rfl
          · rw [Ahead.past_blanks hcore.front hfront]
        have first_false : (m == .letter && startsTight x.toList) = false := by
          simpa [Bool.and_eq_false_iff] using hmeet
        rw [same, first_false, List.append_assoc, List.append_assoc, List.append_cancel_left_eq,
          List.append_cancel_left_eq]
        simp

/-- Texts are shown alike with and without spaces between them just if no two of them meet. -/
theorem collapse_join_eq_iff {texts : List String} :
    collapse (String.join texts) = collapse (" ".intercalate texts) ↔ ¬ Meet texts := by
  have spaced : collapseFrom .nothing (" ".intercalate texts).toList =
      collapseFrom .nothing (texts.flatMap fun t => t.toList ++ [' ']) := by
    rw [String.toList_intercalate, show " ".toList = [' '] from rfl, collapseFrom_intercalate rfl,
      List.flatMap_map]
  have meets : meetsFrom .nothing texts = false ↔ ¬ Meet texts := by
    rw [← Bool.not_eq_true, meetsFrom_iff]
    simp
  unfold collapse
  rw [String.ofList_inj, spaced, String.toList_join, ← meets]
  exact collapseFrom_flatMap_eq_iff .nothing texts

/-- Lines are shown with a space between any two of them. -/
theorem collapse_unlines (ls : List String) :
    collapse (unlines ls) = String.ofList (collapseFrom .nothing (Svelte.lineChars ls)) := by
  unfold collapse unlines Svelte.lineChars
  rw [String.toList_intercalate, show "\n".toList = ['\n'] from rfl, collapseFrom_intercalate rfl,
    List.flatMap_map]

end Text

namespace Svelte

open Text

/-! ### Phrases -/

/-- The node is a text or a tag that is written as this text on a single line. -/
inductive Phrase : TemplateNode → String → Prop where
  | text {t : String} (h : hasLineFeed t = false) : Phrase (.text t) t
  | expression {e : String} (h : hasLineFeed e = false) : Phrase (.expression e) (braced e)
  | html {e : String} (h : hasLineFeed e = false) : Phrase (.html e) (braced s!"@html {e}")
  | render {e : String} (h : hasLineFeed e = false) : Phrase (.render e) (braced s!"@render {e}")

theorem hasLineFeed_append (s t : String) :
    hasLineFeed (s ++ t) = (hasLineFeed s || hasLineFeed t) := by
  simp [hasLineFeed]

theorem hasLineFeed_braced (s : String) : hasLineFeed (braced s) = hasLineFeed s := by
  simp [hasLineFeed, toList_braced]

/-- A phrase is one line. -/
theorem Phrase.isLine {n : TemplateNode} {t : String} (h : Phrase n t) : hasLineFeed t = false := by
  cases h with
  | text h => exact h
  | expression h => rwa [hasLineFeed_braced]
  | html h =>
    rw [hasLineFeed_braced]
    exact (hasLineFeed_append "@html " _).trans h
  | render h =>
    rw [hasLineFeed_braced]
    exact (hasLineFeed_append "@render " _).trans h

theorem singleLine_eq {s : String} (h : hasLineFeed s = false) : singleLine? s = some s :=
  if_neg (by simp [h])

/-- A phrase is written as its text within a line. -/
theorem Phrase.inlineNode {n : TemplateNode} {t : String} (h : Phrase n t) :
    inlineNode n = .ok (some t) := by
  have line := singleLine_eq h.isLine
  cases h <;> rw [Svelte.inlineNode, line]

/-- On one line phrases follow one another as they are. -/
theorem inlineNodes_of_phrases {children : List TemplateNode} {texts : List String}
    (h : List.Forall₂ Phrase children texts) :
    inlineNodes children = .ok (some (String.join texts)) := by
  induction h with
  | nil => rfl
  | cons hn _ ih =>
    rw [inlineNodes, hn.inlineNode, ih, String.join_cons]
    rfl

/-- One line, indented. -/
theorem padded_of_line {indent s : String} {depth : Nat} (h : hasLineFeed s = false)
    (hne : s ≠ "") : padded indent depth s = [padding indent depth ++ s] := by
  have single : lines s = [s] := by
    have : '\n' ∉ s.toList := by simpa [hasLineFeed] using h
    rw [lines, parts, splitOn_of_not_mem this, List.map_singleton, String.ofList_toList]
  rw [padded, single, padLines, List.map_singleton, padLine, if_neg (by simpa using hne)]

/-- Text in braces has no blanks at its ends. -/
theorem strip_braced (s : String) : strip (braced s) = braced s := by
  have first : isBlank '\x7b' = false := rfl
  have last : isBlank '\x7d' = false := rfl
  rw [strip, stripOf, toList_braced, List.dropWhile_cons_of_neg (by simp [first]), dropEndWhile,
    ← List.cons_append, List.reverse_append, List.reverse_singleton, List.singleton_append,
    List.dropWhile_cons_of_neg (by simp [last]), List.reverse_cons, List.reverse_reverse]
  rw [← String.ofList_toList (s := braced s), toList_braced]
  rfl

/-- A text between braces is not blank. -/
theorem isAllBlank_braced (s : String) : isAllBlank (braced s) = false := by
  rw [isAllBlank, toList_braced]
  rfl

theorem isAllBlank_iff {t : String} : isAllBlank t = true ↔ ∀ c ∈ t.toList, isBlank c = true :=
  List.all_eq_true

/-- Both ends are trimmed of blanks. -/
theorem toList_strip (t : String) :
    (strip t).toList = dropEndWhile isBlank (t.toList.dropWhile isBlank) :=
  String.toList_ofList

/-- Only blank text is trimmed to nothing. -/
theorem isEmpty_strip (t : String) : (strip t).isEmpty = isAllBlank t := by
  rw [Bool.eq_iff_iff, isAllBlank_iff, String.isEmpty_iff, ← String.toList_eq_nil_iff, toList_strip]
  constructor
  · intro hnil
    by_contra hsome
    obtain ⟨c, core, hfirst, -⟩ := (isCore_strip hsome).first
    rw [hnil] at hfirst
    cases hfirst
  · intro hall
    rw [List.dropWhile_eq_nil_iff.2 hall]
    rfl

/-- As a block a phrase stands on a line of its own, without the blanks at its ends. -/
theorem Phrase.nodeLines {n : TemplateNode} {t : String} (h : Phrase n t) (indent : String)
    (depth : Nat) :
    nodeLines indent depth n =
      .ok (if isAllBlank t then [] else [padding indent depth ++ strip t]) := by
  have line := h.isLine
  -- Braces are not blank, so nothing is stripped and no line is left out.
  have tag {s : String} (hs : hasLineFeed (braced s) = false) : padded indent depth (braced s) =
      if isAllBlank (braced s) then [] else [padding indent depth ++ strip (braced s)] := by
    have hne : braced s ≠ "" := by
      intro hnil
      have := toList_braced s
      simp [hnil] at this
    rw [padded_of_line hs hne, isAllBlank_braced, strip_braced]
    rfl
  cases h with
  | text h =>
    rw [Svelte.nodeLines]
    simp only [isEmpty_strip]
  | expression h => rw [Svelte.nodeLines, tag line]
  | html h => rw [Svelte.nodeLines, tag line]
  | render h => rw [Svelte.nodeLines, tag line]

/-- The lines of phrases as a block. -/
def blockOf (pad : String) (texts : List String) : List String :=
  texts.flatMap fun t => if isAllBlank t then [] else [pad ++ strip t]

/-- Phrases on lines of their own. -/
theorem nodesLines_of_phrases {children : List TemplateNode} {texts : List String}
    (h : List.Forall₂ Phrase children texts) (indent : String) (depth : Nat) :
    nodesLines indent depth children = .ok (blockOf (padding indent depth) texts) := by
  induction h with
  | nil => rfl
  | cons hn _ ih =>
    rw [nodesLines, hn.nodeLines, ih]
    rfl

/-! ### Both layouts -/

/-- Each line of a block is shown like its phrase with a space behind it. -/
theorem collapseFrom_blockOf {pad : String} (hpad : ∀ c ∈ pad.toList, isBlank c = true)
    {m : Ahead} (hm : m.pause = m) (texts : List String) :
    collapseFrom m (lineChars (blockOf pad texts)) =
      collapseFrom m (texts.flatMap fun t => t.toList ++ [' ']) := by
  induction texts generalizing m with
  | nil => rfl
  | cons t rest ih =>
    have space : isBlank ' ' = true := rfl
    rw [blockOf, List.flatMap_cons, lineChars_append, List.flatMap_cons, List.append_assoc,
      List.singleton_append]
    by_cases ht : ∀ c ∈ t.toList, isBlank c = true
    · rw [if_pos (isAllBlank_iff.2 ht), lineChars_nil, List.nil_append, collapseFrom_append,
        collapseFrom_blanks ht, List.nil_append, collapseFrom_blank space,
        Ahead.pause_past_blanks ht, hm]
      exact ih hm
    · have hcore := isCore_strip ht
      -- The line is the same phrase with other blanks in front of it and none behind it.
      have line : IsCore (pad ++ strip t).toList (strip t).toList pad.toList [] := by
        refine ⟨by simp, hpad, by simp, ?_, ?_⟩
        · rw [toList_strip]
          exact hcore.first
        · rw [toList_strip]
          exact hcore.last
      rw [if_neg (by rwa [isAllBlank_iff]), lineChars_cons, lineChars_nil, List.append_assoc,
        List.cons_append, List.nil_append, line.collapseFrom_line hm rfl,
        hcore.collapseFrom_line hm space, toList_strip]
      exact congrArg _ (ih rfl)

/-- On lines of their own, phrases are read as if spaces stood between them. -/
theorem collapse_blockOf {pad : String} (hpad : ∀ c ∈ pad.toList, isBlank c = true)
    (texts : List String) :
    collapse (unlines (blockOf pad texts)) = collapse (" ".intercalate texts) := by
  rw [collapse_unlines, collapseFrom_blockOf hpad rfl, collapse, String.toList_intercalate,
    show " ".toList = [' '] from rfl, collapseFrom_intercalate rfl, List.flatMap_map]

/-- Phrases may share a line. -/
theorem mayInline_of_phrases {children : List TemplateNode} {texts : List String}
    (h : List.Forall₂ Phrase children texts) : mayInline children = true := by
  have noElement : children.any TemplateNode.isElement = false := by
    induction h with
    | nil => rfl
    | cons hn _ ih => cases hn <;> exact ih
  rw [mayInline, noElement]
  rfl

/-- An element whose attributes are single lines has phrases on the line of its tags if that is
short enough, and else as a block. -/
theorem nodeLines_of_phrases {indent tag : String} {depth : Nat}
    {attributes : List TemplateAttribute} {written : List String}
    (hwritten : attributes.mapM TemplateAttribute.text = .ok written)
    (hlines : written.any hasLineFeed = false) {children : List TemplateNode} (hne : children ≠ [])
    {texts : List String} (hphrases : List.Forall₂ Phrase children texts) :
    nodeLines indent depth (.element tag attributes children false) =
      .ok (if (padding indent depth).length + (startTag tag written ">").length +
            (strip (String.join texts)).length ≤ inlineLimit
        then [padding indent depth ++ startTag tag written ">" ++ strip (String.join texts) ++
          closeTag tag]
        else (padding indent depth ++ startTag tag written ">") ::
          (blockOf (padding indent (depth + 1)) texts ++
            [padding indent depth ++ closeTag tag])) := by
  have content : children.isEmpty = false := by simpa using hne
  rw [nodeLines, elementLines, hwritten, nodesLines_of_phrases hphrases]
  simp only [bind, Except.bind, pure, Except.pure, hlines, content, Bool.false_eq_true, if_false]
  rw [contentLines, inlineNodes_of_phrases hphrases]
  simp only [bind, Except.bind, pure, Except.pure, mayInline_of_phrases hphrases, if_true,
    Option.map_some]
  split <;> rfl

/-- **Layouts.** Let the content of an element consist of phrases. As a block it is shown like the
phrases with a space between any two, and on one line like the phrases as they are. These are shown
alike just if no two phrases meet; which of them is printed depends on the length of the line. -/
theorem layouts_agree_iff (width depth : Nat) {children : List TemplateNode} {texts : List String}
    (hne : children ≠ []) (hphrases : List.Forall₂ Phrase children texts) :
    let indent := String.ofList (List.replicate width ' ')
    ∃ block inline,
      nodesLines indent (depth + 1) children = .ok block ∧
      inlineNodes children = .ok (some inline) ∧
      collapse (unlines block) = collapse (" ".intercalate texts) ∧
      (collapse (unlines block) = collapse inline ↔ ¬ Meet texts) ∧
      ∀ tag attributes written, attributes.mapM TemplateAttribute.text = .ok written →
        written.any hasLineFeed = false →
        nodeLines indent depth (.element tag attributes children false) =
          .ok (if (padding indent depth).length + (startTag tag written ">").length +
                (strip inline).length ≤ inlineLimit
            then [padding indent depth ++ startTag tag written ">" ++ strip inline ++ closeTag tag]
            else (padding indent depth ++ startTag tag written ">") ::
              (block ++ [padding indent depth ++ closeTag tag])) := by
  intro indent
  have hindent : ∀ c ∈ indent.toList, isBlank c = true := by
    intro c hc
    rw [String.toList_ofList] at hc
    rw [List.eq_of_mem_replicate hc]
    rfl
  have shown := collapse_blockOf (isBlank_padding hindent (depth + 1)) texts
  refine ⟨_, _, nodesLines_of_phrases hphrases indent (depth + 1), inlineNodes_of_phrases hphrases,
    shown, ?_, fun tag attributes written hwritten hlines =>
      nodeLines_of_phrases hwritten hlines hne hphrases⟩
  rw [shown, eq_comm, collapse_join_eq_iff]

/-- A sum behind a text, which ends in a blank or in the sign of a currency. -/
def sumPhrases (label : String) : List TemplateNode := [.text label, .expression "total"]

/-- Both samples are phrases. -/
theorem phrases_sum {label : String} (h : hasLineFeed label = false) :
    List.Forall₂ Phrase (sumPhrases label) [label, braced "total"] :=
  .cons (.text h) (.cons (.expression rfl) .nil)

/-- Behind a blank the break of the line is not seen. -/
theorem layouts_agree_of_blank :
    List.Forall₂ Phrase (sumPhrases "Sum: ") ["Sum: ", braced "total"] ∧
    ¬ Meet ["Sum: ", braced "total"] ∧
    ∃ block inline, nodesLines "  " 1 (sumPhrases "Sum: ") = .ok block ∧
      inlineNodes (sumPhrases "Sum: ") = .ok (some inline) ∧
      collapse (unlines block) = collapse inline := by
  have phrases : List.Forall₂ Phrase (sumPhrases "Sum: ") ["Sum: ", braced "total"] :=
    phrases_sum rfl
  have apart : ¬ Meet ["Sum: ", braced "total"] := by decide +kernel
  obtain ⟨block, inline, hblock, hinline, -, hiff, -⟩ :=
    layouts_agree_iff 2 0 (by simp [sumPhrases]) phrases
  exact ⟨phrases, apart, block, inline, hblock, hinline, hiff.2 apart⟩

/-- Behind the sign of a currency it adds a space. -/
theorem break_adds_space :
    List.Forall₂ Phrase (sumPhrases "Sum: $") ["Sum: $", braced "total"] ∧
    nodesLines "  " 1 (sumPhrases "Sum: $") = .ok ["  Sum: $", "  \x7btotal\x7d"] ∧
    inlineNodes (sumPhrases "Sum: $") = .ok (some "Sum: $\x7btotal\x7d") ∧
    collapse (unlines ["  Sum: $", "  \x7btotal\x7d"]) = "Sum: $ \x7btotal\x7d" ∧
    collapse "Sum: $\x7btotal\x7d" = "Sum: $\x7btotal\x7d" :=
  ⟨phrases_sum rfl, by decide +kernel, by decide +kernel, by decide +kernel, by decide +kernel⟩

end Svelte

end Sveltify
