import Sveltify.Proofs.LineStarts
import Sveltify.Text.Line

namespace Sveltify

open Text

/-!
# Lines of texts and of sources

* `getElem?_splitOn_append`: which lines of two texts one after another are lines of the second;
  `getElem?_splitOn_left`, `getElem?_splitOn_seam`: which are lines of the first, and the line that
  they share;
* `Utf8.count_decode`: reading octets keeps the number of line feeds;
* `Source.line_add_count`: the line of an offset, counted from another one.
-/

namespace Text

variable {sep : Char}

/-! ### Lines of two texts -/

theorem splitOn_cons_sep (cs : List Char) : splitOn sep (sep :: cs) = [] :: splitOn sep cs :=
  if_pos rfl

/-- A character that is no separator goes to the first part. -/
theorem exists_splitOn_cons {c : Char} (h : c ≠ sep) (cs : List Char) :
    ∃ part parts, splitOn sep cs = part :: parts ∧
      splitOn sep (c :: cs) = (c :: part) :: parts := by
  cases hparts : splitOn sep cs with
  | nil => exact absurd hparts (splitOn_ne_nil sep cs)
  | cons part parts =>
    refine ⟨part, parts, rfl, ?_⟩
    rw [splitOn, if_neg h, hparts]

/-- There is one part more than there are separators. -/
theorem length_splitOn (cs : List Char) : (splitOn sep cs).length = cs.count sep + 1 := by
  induction cs with
  | nil => rfl
  | cons c cs ih =>
    by_cases hc : c = sep
    · subst hc
      rw [splitOn_cons_sep, List.length_cons, ih, List.count_cons_self]
    · obtain ⟨part, parts, hparts, hcons⟩ := exists_splitOn_cons hc cs
      rw [hparts] at ih
      rw [hcons, List.count_cons_of_ne hc, ← ih, List.length_cons, List.length_cons]

/-- The parts behind the first separator of the second text are parts of both. -/
theorem getElem?_splitOn_append (xs ys : List Char) (i : Nat) :
    (splitOn sep (xs ++ ys))[xs.count sep + (i + 1)]? = (splitOn sep ys)[i + 1]? := by
  induction xs with
  | nil => rw [List.nil_append, List.count_nil, Nat.zero_add]
  | cons x xs ih =>
    by_cases hx : x = sep
    · subst hx
      rw [List.cons_append, splitOn_cons_sep, List.count_cons_self, Nat.add_right_comm,
        List.getElem?_cons_succ, ih]
    · obtain ⟨part, parts, hparts, hcons⟩ := exists_splitOn_cons hx (xs ++ ys)
      rw [hparts, ← Nat.add_assoc, List.getElem?_cons_succ] at ih
      rw [List.cons_append, hcons, List.count_cons_of_ne hx, ← Nat.add_assoc,
        List.getElem?_cons_succ, ih]

/-- The parts in front of the last separator of the first text are parts of both. -/
theorem getElem?_splitOn_left {xs : List Char} {i : Nat} (hi : i < xs.count sep)
    (ys : List Char) : (splitOn sep (xs ++ ys))[i]? = (splitOn sep xs)[i]? := by
  -- By induction on the text: a separator starts a new piece, any other letter joins the first.
  induction xs generalizing i with
  | nil => simp at hi
  | cons x xs ih =>
    by_cases hx : x = sep
    · subst hx
      rw [List.cons_append, splitOn_cons_sep, splitOn_cons_sep]
      cases i with
      | zero => rfl
      | succ i =>
        rw [List.count_cons_self] at hi
        rw [List.getElem?_cons_succ, List.getElem?_cons_succ, ih (by omega)]
    · rw [List.count_cons_of_ne hx] at hi
      obtain ⟨part, parts, hparts, hcons⟩ := exists_splitOn_cons hx (xs ++ ys)
      obtain ⟨part', parts', hparts', hcons'⟩ := exists_splitOn_cons hx xs
      have := ih hi
      rw [hparts, hparts'] at this
      rw [List.cons_append, hcons, hcons']
      cases i with
      | zero => simpa using this
      | succ i => simpa using this

/-- The part in which the first text ends goes on to the first separator of the second. -/
theorem getElem?_splitOn_seam (xs ys : List Char) :
    (splitOn sep (xs ++ ys))[xs.count sep]? =
      (splitOn sep xs)[xs.count sep]?.map (· ++ ys.takeWhile (· != sep)) := by
  -- By induction on the text before the seam: each separator in it moves the seam on by one.
  induction xs with
  | nil =>
    have first : (splitOn sep ys)[0]? = some (ys.takeWhile (· != sep)) := by
      induction ys with
      | nil => rfl
      | cons y ys ih =>
        by_cases hy : y = sep
        · subst hy
          rw [splitOn_cons_sep]
          simp
        · obtain ⟨part, parts, hparts, hcons⟩ := exists_splitOn_cons hy ys
          rw [hparts] at ih
          rw [hcons, List.takeWhile_cons_of_pos (by simpa using hy)]
          simpa using ih
    rw [List.nil_append, List.count_nil, first]
    rfl
  | cons x xs ih =>
    by_cases hx : x = sep
    · subst hx
      rw [List.cons_append, splitOn_cons_sep, splitOn_cons_sep, List.count_cons_self,
        List.getElem?_cons_succ, List.getElem?_cons_succ, ih]
    · obtain ⟨part, parts, hparts, hcons⟩ := exists_splitOn_cons hx (xs ++ ys)
      obtain ⟨part', parts', hparts', hcons'⟩ := exists_splitOn_cons hx xs
      rw [hparts, hparts'] at ih
      rw [List.cons_append, hcons, hcons', List.count_cons_of_ne hx]
      cases hcount : xs.count sep with
      | zero => simpa [hcount] using ih
      | succ i => simpa [hcount] using ih

theorem splitOn_of_not_mem {cs : List Char} (h : sep ∉ cs) : splitOn sep cs = [cs] := by
  induction cs with
  | nil => rfl
  | cons c cs ih =>
    rw [List.mem_cons, not_or] at h
    rw [splitOn, if_neg (Ne.symm h.1), ih h.2]

/-! ### Line feeds in octets -/

namespace Utf8

/-- The unfinished character is none of a single octet: it waits for another octet, and some bits
are read or will be with the next octet. -/
def Pending.IsWide (p : Pending) : Prop := 0x80 ≤ p.low ∧ (1 ≤ p.bits ∨ 2 ≤ p.owed ∧ 0x81 ≤ p.low)

/-- What an octet at the start of a character is classified as: one below 128 is a character, and
any other is none. -/
def Lead.Fits (b : Nat) : Lead → Prop
  | .done c => c = Char.ofNat b
  | .more p => 0x80 ≤ b ∧ p.IsWide
  | .invalid => 0x80 ≤ b

theorem fits_lead (b : Nat) : (lead b).Fits b := by
  fun_cases lead b
  case case1 => rfl
  all_goals
    simp only [Lead.Fits, Pending.IsWide]
    omega

theorem ofNat_eq_lineFeed {v : Nat} : Char.ofNat v = '\n' ↔ v = 10 := by
  constructor
  · intro h
    by_cases hv : v.isValidChar
    · have valid : Char.ofNat v = Char.ofNatAux v hv := dif_pos hv
      exact congrArg Char.toNat (valid.symm.trans h)
    · have invalid : Char.ofNat v = '\x00' := dif_neg hv
      cases invalid.symm.trans h
  · rintro rfl
    rfl

/-- The line feed that an octet at the start of a character is, if it is one. -/
theorem count_start (b : Nat) :
    (start b).1.count '\n' = (if b = 10 then 1 else 0) ∧ ∀ p ∈ (start b).2, p.IsWide := by
  have hlead := fits_lead b
  unfold start
  generalize lead b = first at hlead
  cases first with
  | done c =>
    obtain rfl : c = Char.ofNat b := hlead
    refine ⟨?_, fun _ hp => by cases hp⟩
    by_cases hb : b = 10
    · subst hb
      rfl
    · simp [hb, ofNat_eq_lineFeed]
  | more p =>
    -- A byte that starts a longer sequence, or stands for none, is no line feed.
    have hb : b ≠ 10 := by
      have := hlead.1
      omega
    refine ⟨by simp [hb], fun p' hp => ?_⟩
    obtain rfl := Option.some.inj hp
    exact hlead.2
  | invalid =>
    have hb : b ≠ 10 := by
      have : 0x80 ≤ b := hlead
      omega
    exact ⟨by simp [hb, replacement], fun _ hp => by cases hp⟩

/-- An octet finishes a line feed just if it is one. -/
theorem count_step {q : Option Pending} (hq : ∀ p ∈ q, p.IsWide) (b : Nat) :
    (step q b).1.count '\n' = (if b = 10 then 1 else 0) ∧ ∀ p ∈ (step q b).2, p.IsWide := by
  cases q with
  | none => exact count_start b
  | some p =>
    have hp := hq p rfl
    unfold Pending.IsWide at hp
    rw [step]
    by_cases hb : p.low ≤ b ∧ b ≤ p.high
    · -- An octet that goes on with a character is at least 128.
      have hfeed : b ≠ 10 := by omega
      rw [if_pos hb, if_neg hfeed]
      dsimp only
      split
      · have : Char.ofNat (p.bits * 64 + (b - 128)) ≠ '\n' := fun h => by
          have := ofNat_eq_lineFeed.1 h
          omega
        exact ⟨by simp [this], fun _ hp => by cases hp⟩
      · refine ⟨rfl, fun p' hp' => ?_⟩
        obtain rfl := Option.some.inj hp'
        exact ⟨Nat.le_refl _, .inl (by dsimp only; omega)⟩
    · rw [if_neg hb]
      obtain ⟨hcount, hwide⟩ := count_start b
      exact ⟨by simpa [replacement] using hcount, hwide⟩

theorem count_decodeFrom {q : Option Pending} (hq : ∀ p ∈ q, p.IsWide) (bs : List UInt8) :
    (decodeFrom q bs).count '\n' = bs.count Source.lineFeed := by
  induction bs generalizing q with
  | nil =>
    cases q with
    | none => rfl
    | some p => rfl
  | cons b bs ih =>
    obtain ⟨hcount, hwide⟩ := count_step hq b.toNat
    have feed : b.toNat = 10 ↔ b = Source.lineFeed := by
      rw [← UInt8.toNat_inj]
      rfl
    rw [decodeFrom]
    dsimp only
    rw [List.count_append, hcount, ih hwide]
    by_cases hb : b = Source.lineFeed
    · rw [if_pos (feed.2 hb), hb, List.count_cons_self, Nat.add_comm]
    · rw [if_neg fun h => hb (feed.1 h), List.count_cons_of_ne hb, Nat.zero_add]

/-- Reading octets keeps the number of line feeds. -/
theorem count_decode (bs : List UInt8) : (decode bs).count '\n' = bs.count Source.lineFeed :=
  count_decodeFrom (fun _ h => by cases h) bs

end Utf8

end Text

/-! ### Lines of a source -/

namespace Source

variable (src : Source) {a b : Nat}

/-- The line of an offset is further down by the line feeds in between. -/
theorem line_add_count (h : a ≤ b) :
    (src.position a).line + (src.slice a b).toList.count '\n' = (src.position b).line := by
  rw [slice, String.toList_ofList, sliceChars, Utf8.count_decode, position_eq, position_eq,
    take_eq_append h, List.count_append]
  dsimp only
  omega

/-- A stretch has as many line feeds as it has lines after its first. -/
theorem count_slice_le (a b : Nat) : (src.slice a b).toList.count '\n' ≤
    (src.position b).line - (src.position a).line := by
  rcases Nat.le_total a b with h | h
  · have := src.line_add_count h
    omega
  · have none : src.octets a b = [] :=
      List.drop_eq_nil_of_le (Nat.le_trans (List.length_take_le _ _) h)
    rw [slice, sliceChars, none]
    exact Nat.zero_le _

end Source

end Sveltify
