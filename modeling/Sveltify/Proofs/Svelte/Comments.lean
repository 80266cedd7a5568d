import Sveltify.Proofs.Svelte.Indentation

namespace Sveltify.Svelte

open Text

/-!
# Placeholders in comments

In markup a placeholder is one comment. Its source and its reason are arbitrary texts, so the mark
that ends comments is broken up in them, line by line.

* `not_infix_escapeCommentChars`: the mark is not in an escaped text, and no new one arises from
  what replaces it;
* `not_infix_unlines`: lines without the mark do not give rise to one where they are joined;
* `prefix_drop_append_iff`: a mark that is only behind a text is found nowhere else;
* `placeholder_within_comment`: a placeholder in print.
-/

/-- The mark that ends a comment of markup. -/
def commentEnd : List Char := "-->".toList

/-! ### Marks in joined texts -/

section Infix

variable {p xs ys : List Char}

/-- A pattern is not found across a character that it does not have. -/
theorem infix_append_cons_iff {sep : Char} (hsep : sep ∉ p) :
    p <:+: xs ++ sep :: ys ↔ p <:+: xs ∨ p <:+: ys := by
  constructor
  · intro h
    rcases List.infix_append_iff.1 h with h | h | ⟨front, back, rfl, hfront, hback⟩
    · exact .inl h
    · rcases List.infix_cons_iff.1 h with h | h
      · cases p with
        | nil => exact .inl List.nil_infix
        | cons c p => exact absurd (by simp [(List.cons_prefix_cons.1 h).1]) hsep
      · exact .inr h
    · cases back with
      | nil => exact .inl (by simpa using hfront.isInfix)
      | cons c back => exact absurd (by simp [(List.cons_prefix_cons.1 hback).1]) hsep
  · rintro (h | h)
    · exact h.trans (List.prefix_append _ _).isInfix
    · exact h.trans ((List.suffix_cons _ _).trans (List.suffix_append _ _)).isInfix

/-- A pattern is not found in a text that lacks one of its characters. -/
theorem not_infix_of_not_mem {c : Char} (hp : c ∈ p) (hxs : c ∉ xs) : ¬ p <:+: xs :=
  fun h => hxs (h.subset hp)

/-- Characters that the pattern does not have make no difference in front of a text. -/
theorem not_infix_replicate_append {sep : Char} (hsep : sep ∉ p) (h : ¬ p <:+: ys) (n : Nat) :
    ¬ p <:+: List.replicate n sep ++ ys := by
  induction n with
  | zero => simpa using h
  | succ n ih =>
    have hnil : ¬ p <:+: [] := fun hp => h (hp.trans List.nil_infix)
    rw [List.replicate_succ, List.cons_append, ← List.nil_append (sep :: _),
      infix_append_cons_iff hsep, not_or]
    exact ⟨hnil, ih⟩

/-- Joined lines hold a pattern only if one of them does, unless it has a line feed. -/
theorem not_infix_unlines (hfeed : '\n' ∉ p) {ls : List String} (hne : ls ≠ [])
    (h : ∀ l ∈ ls, ¬ p <:+: l.toList) : ¬ p <:+: (unlines ls).toList := by
  induction ls with
  | nil => exact absurd rfl hne
  | cons l ls ih =>
    obtain ⟨hl, hls⟩ := List.forall_mem_cons.1 h
    cases ls with
    | nil => simpa [unlines] using hl
    | cons l' ls =>
      have joined : (unlines (l :: l' :: ls)).toList =
          l.toList ++ '\n' :: (unlines (l' :: ls)).toList := by
        simp [unlines_cons_cons]
      rw [joined, infix_append_cons_iff hfeed, not_or]
      exact ⟨hl, ih (List.cons_ne_nil _ _) hls⟩

/-- If nothing of a pattern is found before its last character, it is found at the end only. -/
theorem prefix_drop_append_iff (hp : p ≠ []) (h : ¬ p <:+: xs ++ p.dropLast) (i : Nat) :
    p <+: (xs ++ p).drop i ↔ i = xs.length := by
  constructor
  · rintro ⟨rest, hrest⟩
    have whole : xs ++ p = (xs ++ p).take i ++ p ++ rest := by
      rw [List.append_assoc, hrest, List.take_append_drop]
    have hnil : rest = [] := by
      by_contra hne
      refine h ⟨(xs ++ p).take i, rest.dropLast, ?_⟩
      rw [← List.dropLast_append_of_ne_nil hne, ← whole, List.dropLast_append_of_ne_nil hp]
    have hlength := congrArg List.length hrest
    have := List.length_pos_of_ne_nil hp
    simp only [hnil, List.append_nil, List.length_drop, List.length_append] at hlength
    omega
  · rintro rfl
    rw [List.drop_left]

end Infix

/-! ### Escaped comments -/

theorem head?_escapeCommentChars (cs : List Char) : (escapeCommentChars cs).head? = cs.head? := by
  fun_cases escapeCommentChars cs <;> rfl

/-- The last two characters of a mark are not put there by escaping. -/
theorem exists_of_escapeCommentChars_eq {cs rest : List Char}
    (h : escapeCommentChars cs = '-' :: '>' :: rest) : ∃ rest', cs = '-' :: '>' :: rest' := by
  revert h
  fun_cases escapeCommentChars cs with
  | case1 cs =>
    intro h
    cases h
  | case2 c cs hcs =>
    intro h
    obtain ⟨rfl, hrest⟩ := List.cons.inj h
    have hhead : cs.head? = some '>' := by rw [← head?_escapeCommentChars, hrest, List.head?_cons]
    obtain ⟨rest', rfl⟩ := List.head?_eq_some_iff.1 hhead
    exact ⟨rest', rfl⟩
  | case3 =>
    intro h
    cases h

/-- There is no mark in an escaped text: those of the text are broken up, and none arises next to
what stands there instead. -/
theorem not_infix_escapeCommentChars (cs : List Char) :
    ¬ commentEnd <:+: escapeCommentChars cs := by
  fun_induction escapeCommentChars cs with
  | case1 cs ih =>
    have broken : "--&gt;".toList ++ escapeCommentChars cs =
        "--&gt".toList ++ ';' :: escapeCommentChars cs := rfl
    rw [broken, infix_append_cons_iff (by decide), not_or]
    exact ⟨not_infix_of_not_mem (c := '>') (by decide) (by decide), ih⟩
  | case2 c cs hcs ih =>
    rw [List.infix_cons_iff, not_or]
    refine ⟨fun hfirst => ?_, ih⟩
    obtain ⟨hdash, rest, hrest⟩ := List.cons_prefix_cons.1 hfirst
    obtain ⟨rest', hcs'⟩ := exists_of_escapeCommentChars_eq hrest.symm
    exact hcs rest' hdash.symm hcs'
  | case3 => exact not_infix_of_not_mem (c := '>') (by decide) List.not_mem_nil

/-! ### Placeholders in print -/

theorem toList_padding_spaces (width depth : Nat) :
    (padding (spaces width) depth).toList = List.replicate (depth * width) ' ' := by
  induction depth with
  | zero => simp [padding]
  | succ depth ih =>
    have next : padding (spaces width) (depth + 1) =
        spaces width ++ padding (spaces width) depth := by
      simp [padding, List.replicate_succ]
    rw [next, String.toList_append, ih, toList_spaces, List.replicate_append_replicate,
      Nat.succ_mul, Nat.add_comm]

theorem toList_unlines_concat (front : List String) (l behind : String) :
    (unlines (front ++ [l ++ behind])).toList =
      (unlines (front ++ [l])).toList ++ behind.toList := by
  cases front with
  | nil => simp [unlines]
  | cons first rest => simp [toList_unlines_cons]

/-- The lines of a placeholder in front of the last. -/
def Placeholder.frontLines (pad : String) (p : Placeholder) : List String :=
  (pad ++ "<!-- " ++ p.marker ++ ": " ++ escapeComment p.reason) ::
    (lines p.source).map fun line => padLine pad (escapeComment line)

section Lines

variable {pad : String} {n : Nat} (hpad : pad.toList = List.replicate n ' ') (p : Placeholder)
include hpad

/-- Padding ends no comment. -/
theorem not_infix_padded {cs : List Char} (h : ¬ commentEnd <:+: cs) :
    ¬ commentEnd <:+: pad.toList ++ cs := by
  rw [hpad]
  exact not_infix_replicate_append (by decide) h n

/-- No line in front of the last has a mark in it, since the marker has none. -/
theorem not_infix_frontLines (hmarker : ¬ commentEnd <:+: p.marker.toList) :
    ∀ l ∈ p.frontLines pad, ¬ commentEnd <:+: l.toList := by
  have hescaped (s : String) : ¬ commentEnd <:+: (escapeComment s).toList := by
    rw [escapeComment, String.toList_ofList]
    exact not_infix_escapeCommentChars s.toList
  have hplain {cs : List Char} (h : '>' ∉ cs) : ¬ commentEnd <:+: cs :=
    not_infix_of_not_mem (by decide) h
  intro l hl
  rcases List.mem_cons.1 hl with rfl | hl
  · -- Blanks and a colon keep the parts of the first line apart.
    have parts : (pad ++ "<!-- " ++ p.marker ++ ": " ++ escapeComment p.reason).toList =
        pad.toList ++ ("<!--".toList ++ ' ' ::
          (p.marker.toList ++ ':' :: ([] ++ ' ' :: (escapeComment p.reason).toList))) := by
      simp
    rw [parts]
    refine not_infix_padded hpad ?_
    rw [infix_append_cons_iff (by decide), infix_append_cons_iff (by decide),
      infix_append_cons_iff (by decide), not_or, not_or, not_or]
    exact ⟨hplain (by decide), hmarker, hplain (by decide), hescaped p.reason⟩
  · obtain ⟨line, -, rfl⟩ := List.mem_map.1 hl
    rw [padLine]
    split
    · exact hplain (by decide)
    · rw [String.toList_append]
      exact not_infix_padded hpad (hescaped line)

end Lines

/-- **Comments.** A placeholder of markup whose marker does not end a comment is printed at every
width and depth, whatever its reason and its source are: behind the padding a comment is opened, and
the mark that ends it is found once, at the end of the last line. -/
theorem placeholder_within_comment (p : Placeholder) (hmarker : ¬ commentEnd <:+: p.marker.toList)
    (width depth : Nat) :
    ∃ ls, nodeLines (spaces width) depth (.placeholder p) = .ok ls ∧
      List.replicate (depth * width) ' ' ++ "<!--".toList <+: (unlines ls).toList ∧
      ∀ i, commentEnd <+: (unlines ls).toList.drop i ↔ i + 3 = (unlines ls).toList.length := by
  have hpad := toList_padding_spaces width depth
  generalize hindent : padding (spaces width) depth = pad at hpad
  refine ⟨p.frontLines pad ++ [pad ++ "-->"], by rw [nodeLines, hindent]; rfl, ?_, fun i => ?_⟩
  · rw [← hpad, Placeholder.frontLines, List.cons_append, toList_unlines_cons]
    simp
  · have hfront : ¬ commentEnd <:+:
        (unlines (p.frontLines pad ++ [pad])).toList ++ commentEnd.dropLast := by
      have hlast : ¬ commentEnd <:+: (pad ++ "--").toList := by
        rw [String.toList_append]
        exact not_infix_padded hpad (not_infix_of_not_mem (c := '>') (by decide) (by decide))
      have hlines : ∀ l ∈ p.frontLines pad ++ [pad ++ "--"], ¬ commentEnd <:+: l.toList :=
        List.forall_mem_append.2
          ⟨not_infix_frontLines hpad p hmarker, List.forall_mem_singleton.2 hlast⟩
      have := not_infix_unlines (by decide) (by simp) hlines
      rwa [toList_unlines_concat] at this
    rw [toList_unlines_concat]
    have := prefix_drop_append_iff (by decide) hfront i
    rw [show "-->".toList = commentEnd from rfl, this, List.length_append]
    show i = _ ↔ i + 3 = _ + 3
    omega

section Sample

/-- A placeholder with marks in its reason and its source, next to dashes and across lines. -/
def arrows : Placeholder where
  marker := "TODO(r2s#2)"
  reason := "no --> here"
  source := "x--> 1\n--\n>--->"

/-- Arrows at the ends of lines. -/
theorem placeholder_within_comment_of_arrows :
    ∃ ls, nodeLines (spaces 2) 1 (.placeholder arrows) = .ok ls ∧
      unlines ls = "  <!-- TODO(r2s#2): no --&gt; here\n  x--&gt; 1\n  --\n  >---&gt;\n  -->" ∧
      ∀ i, commentEnd <+: (unlines ls).toList.drop i ↔ i + 3 = (unlines ls).toList.length := by
  obtain ⟨ls, hls, -, hend⟩ := placeholder_within_comment arrows (by decide +kernel) 2 1
  have lines : nodeLines (spaces 2) 1 (.placeholder arrows) =
      .ok ["  <!-- TODO(r2s#2): no --&gt; here", "  x--&gt; 1", "  --", "  >---&gt;", "  -->"] := by
    decide +kernel
  refine ⟨ls, hls, ?_, hend⟩
  rw [Except.ok.inj (hls.symm.trans lines)]
  decide +kernel

end Sample

end Sveltify.Svelte
