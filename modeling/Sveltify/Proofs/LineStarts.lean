import Mathlib.Data.List.GetD
import Mathlib.Tactic.Conv
import Sveltify.Proofs.Text

namespace Sveltify.Source

open Text

/-!
# The table of line starts

The line of an offset is looked up in a table by halving. The table is sorted, so what is found is
the number of lines that start up to the offset, and this is told by the line feeds in front of it.

* `Bracket`: what the halving keeps: the place that is looked for lies between two bounds;
* `bisectRight_eq_countP`: in a sorted list it is the number of entries up to the given one;
* `countP_lineStarts`: how many lines start up to an offset;
* `octets_lineStart`: the last of these starts behind the last line feed;
* `position_eq`: the position of an offset, told without the table.
-/

/-! ### Halving -/

/-- The place behind the entries up to `x` lies between `lo` and `hi`. -/
structure Bracket (entries : List Nat) (x lo hi : Nat) : Prop where
  le : lo ≤ hi
  bounded : hi ≤ entries.length
  below : ∀ i < lo, entries.getD i 0 ≤ x
  above : ∀ i, hi ≤ i → i < entries.length → x < entries.getD i 0

variable {entries : List Nat} {x lo hi mid : Nat}

/-- The entries of a sorted list go up. -/
theorem getD_le_getD (hsorted : entries.Pairwise (· ≤ ·)) {i j : Nat} (hij : i ≤ j)
    (hj : j < entries.length) : entries.getD i 0 ≤ entries.getD j 0 := by
  rcases Nat.lt_or_eq_of_le hij with hlt | rfl
  · have hi : i < entries.length := Nat.lt_trans hlt hj
    rw [List.getD_eq_getElem _ _ hi, List.getD_eq_getElem _ _ hj]
    exact List.pairwise_iff_getElem.1 hsorted i j hi hj hlt
  · exact Nat.le_refl _

namespace Bracket

/-- At first the whole list is searched. -/
theorem whole (entries : List Nat) (x : Nat) : Bracket entries x 0 entries.length where
  le := Nat.zero_le _
  bounded := Nat.le_refl _
  below := fun i hi => absurd hi (Nat.not_lt_zero i)
  above := fun _ hi hlt => absurd hi (Nat.not_le.2 hlt)

/-- **Step.** An entry behind `x` bounds the place from above. -/
theorem lower (h : Bracket entries x lo hi) (hsorted : entries.Pairwise (· ≤ ·)) (hlo : lo ≤ mid)
    (hhi : mid < hi) (hmid : x < entries.getD mid 0) : Bracket entries x lo mid where
  le := hlo
  bounded := Nat.le_trans (Nat.le_of_lt hhi) h.bounded
  below := h.below
  above := fun _ hi hlt => Nat.lt_of_lt_of_le hmid (getD_le_getD hsorted hi hlt)

/-- **Step.** An entry up to `x` bounds the place from below. -/
theorem upper (h : Bracket entries x lo hi) (hsorted : entries.Pairwise (· ≤ ·)) (hhi : mid < hi)
    (hmid : entries.getD mid 0 ≤ x) : Bracket entries x (mid + 1) hi where
  le := hhi
  bounded := h.bounded
  below := fun _ hi => Nat.le_trans
    (getD_le_getD hsorted (Nat.le_of_lt_succ hi) (Nat.lt_of_lt_of_le hhi h.bounded)) hmid
  above := h.above

/-- **Run.** The halving ends at the place that is looked for. -/
theorem bisectRight (hsorted : entries.Pairwise (· ≤ ·)) (h : Bracket entries x lo hi) :
    Bracket entries x (Source.bisectRight entries x lo hi)
      (Source.bisectRight entries x lo hi) := by
  fun_induction Source.bisectRight entries x lo hi with
  | case1 lo hi hlt mid hmid ih => exact ih (h.lower hsorted (by omega) (by omega) hmid)
  | case2 lo hi hlt mid hmid ih => exact ih (h.upper hsorted (by omega) (Nat.not_lt.1 hmid))
  | case3 lo hi hlt =>
    obtain rfl : lo = hi := Nat.le_antisymm h.le (Nat.not_lt.1 hlt)
    exact h

/-- The place tells the number of entries up to `x`. -/
theorem eq_countP {place : Nat} (h : Bracket entries x place place) :
    place = entries.countP (· ≤ x) := by
  have front : (entries.take place).countP (· ≤ x) = place := by
    rw [List.countP_eq_length.2, List.length_take, Nat.min_eq_left h.bounded]
    intro e he
    obtain ⟨i, hi, rfl⟩ := List.mem_take_iff_getElem.1 he
    have := h.below i (by omega)
    rw [List.getD_eq_getElem _ _ (by omega)] at this
    simpa using this
  have rest : (entries.drop place).countP (· ≤ x) = 0 := by
    rw [List.countP_eq_zero]
    intro e he
    obtain ⟨i, hi, rfl⟩ := List.mem_drop_iff_getElem.1 he
    have := h.above (place + i) (by omega) (by omega)
    rw [List.getD_eq_getElem _ _ (by omega)] at this
    simpa using this
  conv_rhs => rw [← List.take_append_drop place entries]
  rw [List.countP_append, front, rest, Nat.add_zero]

end Bracket

/-- In a sorted list the halving finds the number of entries up to the given one. -/
theorem bisectRight_eq_countP (hsorted : entries.Pairwise (· ≤ ·)) (x : Nat) :
    bisectRight entries x 0 entries.length = entries.countP (· ≤ x) :=
  ((Bracket.whole entries x).bisectRight hsorted).eq_countP

/-! ### The table -/

variable (src : Source) {start offset : Nat}

/-- A line starts at the front of the text and behind each line feed, and nowhere else. -/
theorem mem_lineStarts :
    start ∈ src.lineStarts ↔ start = 0 ∨ ∃ i, src.bytes[i]? = some lineFeed ∧ start = i + 1 := by
  simp only [lineStarts, List.mem_cons, List.mem_map, List.mem_filter, beq_iff_eq, Prod.exists,
    List.mem_zipIdx_iff_getElem?]
  refine or_congr_right ⟨?_, ?_⟩
  · rintro ⟨b, i, ⟨hb, rfl⟩, rfl⟩
    exact ⟨i, hb, rfl⟩
  · rintro ⟨i, hb, rfl⟩
    exact ⟨lineFeed, i, ⟨hb, rfl⟩, rfl⟩

/-- The table is in ascending order. -/
theorem pairwise_lineStarts : src.lineStarts.Pairwise (· < ·) := by
  have ascending : src.bytes.zipIdx.Pairwise (fun a b => a.2 < b.2) := by
    rw [List.pairwise_iff_getElem]
    intro i j hi hj hij
    rw [List.getElem_zipIdx, List.getElem_zipIdx]
    simpa using hij
  refine List.pairwise_cons.2 ⟨fun start hstart => ?_, ?_⟩
  · obtain ⟨b, -, rfl⟩ := List.mem_map.1 hstart
    exact Nat.succ_pos _
  · exact List.pairwise_map.2 ((ascending.filter _).imp Nat.succ_lt_succ)

/-- The table is sorted, as the halving needs it. -/
theorem sorted_lineStarts : src.lineStarts.Pairwise (· ≤ ·) :=
  (pairwise_lineStarts src).imp Nat.le_of_lt

/-- The line feeds among the first octets, counted by the places behind them. -/
theorem countP_feeds (bs : List UInt8) (first : Nat) (n : Nat) :
    (((bs.zipIdx first).filter (·.1 == lineFeed)).map (·.2 + 1)).countP (· ≤ first + n) =
      (bs.take n).count lineFeed := by
  induction bs generalizing first n with
  | nil => simp
  | cons b bs ih =>
    cases n with
    | zero =>
      -- All the places are behind `first`.
      rw [List.take_zero, List.count_nil, List.countP_eq_zero]
      intro start hstart
      obtain ⟨⟨b', i⟩, hi, rfl⟩ := List.mem_map.1 hstart
      have := List.le_snd_of_mem_zipIdx (List.mem_filter.1 hi).1
      rw [decide_eq_true_eq]
      omega
    | succ n =>
      have := ih (first + 1) n
      rw [show first + 1 + n = first + (n + 1) by omega] at this
      rw [List.zipIdx_cons, List.take_succ_cons]
      by_cases hb : b = lineFeed
      · rw [List.filter_cons_of_pos (by simpa using hb), List.map_cons,
          List.countP_cons_of_pos (by simp), this, hb, List.count_cons_self]
      · rw [List.filter_cons_of_neg (by simpa using hb), this, List.count_cons_of_ne hb]

/-- One line more starts up to an offset than there are line feeds in front of it. -/
theorem countP_lineStarts (offset : Nat) :
    src.lineStarts.countP (· ≤ offset) = (src.bytes.take offset).count lineFeed + 1 := by
  have := countP_feeds src.bytes 0 offset
  rw [Nat.zero_add] at this
  rw [lineStarts, List.countP_cons_of_pos (by simp), this]

/-! ### The line of an offset -/

/-- Behind the last line feed of some octets is what follows them, if it has no line feed. -/
theorem lastLine_append {front bs : List UInt8}
    (hfront : front = [] ∨ ∃ others, front = others ++ [lineFeed]) (h : lineFeed ∉ bs) :
    lastLine (front ++ bs) = bs := by
  have hbs : ∀ b ∈ bs.reverse, (b != lineFeed) = true := fun b hb =>
    bne_iff_ne.2 fun hfeed => h (hfeed ▸ List.mem_reverse.1 hb)
  have stop : front.reverse.takeWhile (· != lineFeed) = [] := by
    rcases hfront with rfl | ⟨others, rfl⟩
    · rfl
    · rw [List.reverse_concat, List.takeWhile_cons_of_neg (by simp)]
  rw [lastLine, List.reverse_append, List.takeWhile_append_of_pos hbs, stop, List.append_nil,
    List.reverse_reverse]

/-- The line that starts last up to an offset is what stands behind the last line feed in front of
the offset. -/
theorem octets_lineStart (hstart : start ∈ src.lineStarts) (hle : start ≤ offset)
    (hlast : ∀ later ∈ src.lineStarts, later ≤ offset → later ≤ start) :
    src.octets start offset = lastLine (src.bytes.take offset) := by
  have none_between : lineFeed ∉ src.octets start offset := by
    intro hfeed
    obtain ⟨i, hi, hat⟩ := List.mem_drop_iff_getElem.1 hfeed
    rw [List.getElem_take] at hat
    rw [List.length_take] at hi
    -- A line would start behind that line feed, later than the last one.
    have := hlast (start + i + 1)
      ((mem_lineStarts src).2 (.inr ⟨start + i, by rw [← hat]; simp, rfl⟩)) (by omega)
    omega
  rw [take_eq_append hle, lastLine_append _ none_between]
  rcases (mem_lineStarts src).1 hstart with rfl | ⟨i, hi, rfl⟩
  · exact .inl rfl
  · refine .inr ⟨src.bytes.take i, ?_⟩
    rw [List.take_add_one, hi]
    rfl

/-- The entry found for an offset is the last line start up to it. -/
theorem lineStart_last (offset : Nat) :
    let row := bisectRight src.lineStarts offset 0 src.lineStarts.length - 1
    src.lineStarts.getD row 0 ∈ src.lineStarts ∧ src.lineStarts.getD row 0 ≤ offset ∧
      ∀ later ∈ src.lineStarts, later ≤ offset → later ≤ src.lineStarts.getD row 0 := by
  have hsorted := sorted_lineStarts src
  have bracket := (Bracket.whole src.lineStarts offset).bisectRight hsorted
  have hplace := bracket.eq_countP
  rw [countP_lineStarts] at hplace
  generalize bisectRight src.lineStarts offset 0 src.lineStarts.length = place at bracket hplace
  have hrow : place - 1 < src.lineStarts.length := by
    have := bracket.bounded
    omega
  refine ⟨?_, bracket.below _ (by omega), fun later hlater hle => ?_⟩
  · rw [List.getD_eq_getElem _ _ hrow]
    exact List.getElem_mem hrow
  · obtain ⟨j, hj, rfl⟩ := List.getElem_of_mem hlater
    -- The entries from the place on are behind the offset.
    have hbefore : j < place := by
      refine Nat.lt_of_not_le fun hplace => ?_
      have := bracket.above j hplace hj
      rw [List.getD_eq_getElem _ _ hj] at this
      omega
    rw [← List.getD_eq_getElem _ 0 hj]
    exact getD_le_getD hsorted (by omega) hrow

/-- The position of an offset, told without the table: one more than the line feeds in front of it,
and one more than the characters behind the last of these. -/
theorem position_eq (offset : Nat) :
    src.position offset =
      ⟨(src.bytes.take offset).count lineFeed + 1,
        (Utf8.decode (lastLine (src.bytes.take offset))).length + 1⟩ := by
  obtain ⟨hstart, hle, hlast⟩ := lineStart_last src offset
  have hcolumn := octets_lineStart src hstart hle hlast
  have hplace := bisectRight_eq_countP (sorted_lineStarts src) offset
  rw [countP_lineStarts] at hplace
  unfold position sliceChars
  dsimp only
  rw [hcolumn, hplace, Nat.add_sub_cancel]

end Sveltify.Source
