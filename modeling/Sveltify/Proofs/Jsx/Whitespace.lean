import Mathlib.Data.List.DropRight
import Mathlib.Data.List.Induction
import Sveltify.Jsx.Text
import Sveltify.Proofs.Lines

namespace Sveltify.Jsx

open Text

/-!
# The whitespace rule of JSX

The rule looks at the lines of a text child by their numbers: it strips each line by its place, and
puts a space behind every line that is left but the last one of which something can be seen. The
text that is shown is put together in another way, from all that is left with a space in between.

* `childText`: the rule;
* `textLines_eq`: the lines of a text child, whichever line ends it has;
* `strippedLine_eq_nil_iff`: which lines are left;
* `exists_lastVisible`: behind the last visible line nothing is left;
* `intercalate_kept`: lines with spaces between them are lines with spaces behind all but the last;
* `cleanText_eq_childText`: the shown text follows the rule.
-/

/-! ### The rule -/

/-- The text with each of its line ends, CR LF, LF or CR, as a line feed. -/
def withLineFeeds : List Char → List Char
  | [] => []
  | '\r' :: '\n' :: cs => '\n' :: withLineFeeds cs
  | c :: cs => (if c = '\r' then '\n' else c) :: withLineFeeds cs

/-- Can anything of the line be seen? -/
def isVisible (l : List Char) : Bool := l.any fun c => c != ' ' && c != '\t'

/-- The number of the last line of which something can be seen, or zero. -/
def lastVisible (ls : List (List Char)) : Nat :=
  ls.zipIdx.foldl (fun last l => if isVisible l.1 then l.2 else last) 0

/-- Line `i` of `count` lines with its tabs as spaces, without leading spaces unless it is the first
line and without trailing spaces unless it is the last. -/
def strippedLine (count i : Nat) (l : List Char) : List Char :=
  let l := l.map fun c => if c = '\t' then ' ' else c
  let l := if i = 0 then l else l.dropWhile (· == ' ')
  if i + 1 = count then l else l.rdropWhile (· == ' ')

/-- A line that is left, with a space behind it unless it has the number `last`. -/
def spaced (last i : Nat) (l : List Char) : List Char :=
  if l = [] then [] else if i = last then l else l ++ [' ']

/-- The text that a text child stands for by the rule of JSX. -/
def childText (raw : String) : String :=
  let ls := splitOn '\n' (withLineFeeds raw.toList)
  String.ofList (ls.zipIdx.flatMap fun l =>
    spaced (lastVisible ls) l.2 (strippedLine ls.length l.2 l.1))

/-! ### Lines -/

theorem withLineFeeds_cons {c : Char} {cs : List Char}
    (h : ∀ rest, c = '\r' → cs = '\n' :: rest → False) :
    withLineFeeds (c :: cs) = (if c = '\r' then '\n' else c) :: withLineFeeds cs := by
  rw [withLineFeeds]
  exact h

/-- Lines are split at line feeds. -/
theorem textLines_eq (cs : List Char) : textLines cs = splitOn '\n' (withLineFeeds cs) := by
  fun_induction textLines cs with
  | case1 => rfl
  | case2 cs ih => rw [withLineFeeds, splitOn_cons_sep, ih]
  | case3 c cs hcrlf hend ih =>
    have feed : (if c = '\r' then '\n' else c) = '\n' := by
      rcases hend with rfl | rfl <;> rfl
    rw [withLineFeeds_cons hcrlf, feed, splitOn_cons_sep, ih]
  | case4 c cs _ _ hnone ih => exact absurd (ih ▸ hnone) (splitOn_ne_nil _ _)
  | case5 c cs hcrlf hend l ls hlines ih =>
    rw [not_or] at hend
    rw [withLineFeeds_cons hcrlf, if_neg hend.2, splitOn, if_neg hend.1, ← ih, hlines]

/-- A line is trimmed where it meets another. -/
theorem trimLine_eq (count i : Nat) (l : List Char) :
    trimLine (decide (i = 0)) (decide (i + 1 = count)) l = strippedLine count i l := by
  unfold trimLine strippedLine
  simp only [decide_eq_true_eq]
  rfl

/-- The lines from number `i` on, none of which is the first, are trimmed by their numbers. -/
theorem trimRest_eq {i : Nat} (hi : i ≠ 0) (ls : List (List Char)) :
    trimRest ls = (ls.zipIdx i).map fun l => strippedLine (i + ls.length) l.2 l.1 := by
  fun_induction trimRest ls generalizing i with
  | case1 => rfl
  | case2 l =>
    have := trimLine_eq (i + 1) i l
    simpa [hi] using this
  | case3 l ls hls ih =>
    have hlast : i + 1 ≠ i + (l :: ls).length := by
      have := List.length_pos_of_ne_nil hls
      simp only [List.length_cons]
      omega
    have first := trimLine_eq (i + (l :: ls).length) i l
    rw [decide_eq_false hi, decide_eq_false hlast] at first
    have total : i + 1 + ls.length = i + (l :: ls).length := by
      simp only [List.length_cons]
      omega
    rw [ih (Nat.succ_ne_zero i), total, first, List.zipIdx_cons, List.map_cons]

/-- Every line is trimmed by its number. -/
theorem trimLines_eq (ls : List (List Char)) :
    trimLines ls = ls.zipIdx.map fun l => strippedLine ls.length l.2 l.1 := by
  fun_cases trimLines ls with
  | case1 => rfl
  | case2 l => simpa using trimLine_eq 1 0 l
  | case3 l ls hls =>
    have hlast : 0 + 1 ≠ (l :: ls).length := by
      have := List.length_pos_of_ne_nil hls
      simp only [List.length_cons]
      omega
    have first := trimLine_eq (l :: ls).length 0 l
    rw [decide_eq_true rfl, decide_eq_false hlast] at first
    rw [trimRest_eq Nat.one_ne_zero, first, List.zipIdx_cons, List.map_cons, List.length_cons,
      Nat.add_comm 1]

/-! ### Lines that are left -/

/-- A line of blanks is not seen. -/
theorem isVisible_eq_false {l : List Char} :
    isVisible l = false ↔ ∀ c ∈ l.map fun c => if c = '\t' then ' ' else c, (c == ' ') = true := by
  simp only [isVisible, List.any_eq_false, List.forall_mem_map]
  refine forall₂_congr fun c _ => ?_
  by_cases hc : c = '\t' <;> simp [hc]

/-- Unless there is only one line, nothing is left of a line just if it cannot be seen. -/
theorem strippedLine_eq_nil_iff {count i : Nat} (h : ¬ (i = 0 ∧ i + 1 = count)) (l : List Char) :
    strippedLine count i l = [] ↔ isVisible l = false := by
  rw [isVisible_eq_false]
  unfold strippedLine
  generalize l.map (fun c => if c = '\t' then ' ' else c) = l
  have dropped : (∀ c ∈ l.dropWhile (· == ' '), (c == ' ') = true) ↔
      ∀ c ∈ l, (c == ' ') = true := by
    refine ⟨fun hall c hc => ?_, fun hall c hc => hall c ((List.dropWhile_sublist _).mem hc)⟩
    rw [← List.takeWhile_append_dropWhile (p := (· == ' ')) (l := l), List.mem_append] at hc
    exact hc.elim (List.all_eq_true.1 List.all_takeWhile c) (hall c)
  by_cases hfirst : i = 0
  · have hlast : i + 1 ≠ count := fun hlast => h ⟨hfirst, hlast⟩
    simp only [if_pos hfirst, if_neg hlast, List.rdropWhile_eq_nil_iff]
  · by_cases hlast : i + 1 = count
    · simp only [if_neg hfirst, if_pos hlast, List.dropWhile_eq_nil_iff]
    · simp only [if_neg hfirst, if_neg hlast, List.rdropWhile_eq_nil_iff, dropped]

/-- A visible line is not empty. -/
theorem strippedLine_ne_nil {l : List Char} (h : isVisible l = true) (count i : Nat) :
    strippedLine count i l ≠ [] := by
  by_cases hplace : i = 0 ∧ i + 1 = count
  · -- A single line is not stripped at all.
    have hl : l ≠ [] := by
      rintro rfl
      cases h
    obtain ⟨rfl, rfl⟩ := hplace
    simpa [strippedLine] using hl
  · simp [strippedLine_eq_nil_iff hplace, h]

/-- The last visible line, from behind. -/
theorem lastVisible_concat (ls : List (List Char)) (l : List Char) :
    lastVisible (ls ++ [l]) = if isVisible l then ls.length else lastVisible ls := by
  rw [lastVisible, List.zipIdx_append, List.foldl_append, Nat.zero_add]
  rfl

/-- The line with the number of the last visible one: behind it nothing can be seen, and it can be
seen itself unless it is the first line. -/
theorem exists_lastVisible {ls : List (List Char)} (h : ls ≠ []) :
    ∃ before l after, ls = before ++ l :: after ∧ lastVisible ls = before.length ∧
      (before = [] ∨ isVisible l = true) ∧ ∀ l' ∈ after, isVisible l' = false := by
  induction ls using List.reverseRecOn with
  | nil => exact absurd rfl h
  | append_singleton ls last ih =>
    rw [lastVisible_concat]
    by_cases hvisible : isVisible last = true
    · exact ⟨ls, last, [], rfl, if_pos hvisible, .inr hvisible, by simp⟩
    · rw [if_neg hvisible]
      by_cases hls : ls = []
      · subst hls
        exact ⟨[], last, [], rfl, rfl, .inl rfl, by simp⟩
      · obtain ⟨before, l, after, rfl, hnumber, hl, hafter⟩ := ih hls
        refine ⟨before, l, after ++ [last], by simp, hnumber, hl, fun l' hl' => ?_⟩
        rcases List.mem_append.1 hl' with hl' | hl'
        · exact hafter l' hl'
        · rw [List.mem_singleton.1 hl']
          exact Bool.eq_false_iff.2 hvisible

/-! ### Spaces between lines and behind lines -/

theorem intercalate_concat (ls : List (List Char)) (l : List Char) :
    [' '].intercalate (ls ++ [l]) = ls.flatMap (· ++ [' ']) ++ l := by
  induction ls with
  | nil => simp
  | cons first ls ih =>
    obtain ⟨second, rest, hrest⟩ : ∃ second rest, ls ++ [l] = second :: rest :=
      List.exists_cons_of_ne_nil (by simp)
    rw [List.cons_append, hrest, List.intercalate_cons_cons, ← hrest, ih, List.flatMap_cons]
    simp only [List.append_assoc]

theorem flatMap_spaced_of_lt {α : Type} {ls : List (α × Nat)} {last : Nat}
    (h : ∀ l ∈ ls, l.2 ≠ last) (f : α × Nat → List Char) :
    ls.flatMap (fun l => spaced last l.2 (f l)) =
      ((ls.map f).filter fun l => !l.isEmpty).flatMap (· ++ [' ']) := by
  induction ls with
  | nil => rfl
  | cons l ls ih =>
    obtain ⟨hl, hls⟩ := List.forall_mem_cons.1 h
    rw [List.flatMap_cons, ih hls, List.map_cons, List.filter_cons]
    by_cases hempty : f l = []
    · simp [spaced, hempty]
    · simp [spaced, hempty, hl]

/-- What is left of the lines with single spaces in between has a space behind each of them but the
last. -/
theorem intercalate_kept {before after : List (List Char × Nat)} {l : List Char × Nat}
    {f : List Char × Nat → List Char} (hbefore : ∀ l' ∈ before, l'.2 ≠ l.2)
    (hl : before = [] ∨ f l ≠ []) (hafter : ∀ l' ∈ after, f l' = []) :
    [' '].intercalate (((before ++ l :: after).map f).filter fun l => !l.isEmpty) =
      (before ++ l :: after).flatMap fun l' => spaced l.2 l'.2 (f l') := by
  have none_after : (after.map f).filter (fun l => !l.isEmpty) = [] :=
    List.filter_eq_nil_iff.2 (List.forall_mem_map.2 fun l' hl' => by simp [hafter l' hl'])
  have nothing_after : after.flatMap (fun l' => spaced l.2 l'.2 (f l')) = [] :=
    List.flatMap_eq_nil_iff.2 fun l' hl' => by simp [spaced, hafter l' hl']
  rw [List.map_append, List.map_cons, List.filter_append, List.filter_cons, none_after,
    List.flatMap_append, List.flatMap_cons, nothing_after, List.append_nil,
    flatMap_spaced_of_lt hbefore]
  by_cases hempty : f l = []
  · obtain rfl := hl.resolve_right (not_not_intro hempty)
    simp [spaced, hempty]
  · simp [spaced, hempty, intercalate_concat]

/-! ### The shown text -/

theorem intercalate_ofList (ls : List (List Char)) :
    " ".intercalate (ls.map String.ofList) = String.ofList ([' '].intercalate ls) := by
  simp [← String.toList_inj, String.toList_intercalate, Function.comp_def]

/-- **Whitespace.** The text shown for a text child is the one that the rule of JSX gives: the lines
between the line ends CR LF, LF and CR, with spaces for tabs and without the spaces at the breaks
between lines, and with one space behind each line that is left but the last visible one. -/
theorem cleanText_eq_childText (raw : String) : cleanText raw = childText raw := by
  unfold cleanText childText
  dsimp only
  rw [textLines_eq, trimLines_eq, intercalate_ofList]
  refine congrArg String.ofList ?_
  have hls := splitOn_ne_nil '\n' (withLineFeeds raw.toList)
  generalize splitOn '\n' (withLineFeeds raw.toList) = ls at hls
  obtain ⟨before, l, after, rfl, hnumber, hl, hafter⟩ := exists_lastVisible hls
  rw [hnumber, List.zipIdx_append, List.zipIdx_cons, Nat.zero_add]
  refine intercalate_kept (l := (l, before.length)) (fun l' hl' => ?_) ?_ fun l' hl' => ?_
  · have := (List.mem_zipIdx hl').2.1
    dsimp only
    omega
  · rcases hl with rfl | hl
    · exact .inl rfl
    · exact .inr (strippedLine_ne_nil hl _ _)
  · -- A line behind another is not the first, so nothing is left of it if it cannot be seen.
    have place := (List.mem_zipIdx hl').1
    refine (strippedLine_eq_nil_iff (fun h => ?_) _).2 (hafter _ (List.fst_mem_of_mem_zipIdx hl'))
    omega

example : childText " a\t\r\n \n\tb \r" = " a b" := by decide +kernel

end Sveltify.Jsx
