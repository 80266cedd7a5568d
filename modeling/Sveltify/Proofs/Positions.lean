import Sveltify.Proofs.Lines

namespace Sveltify

open Text

/-!
# Positions

A source is kept as octets, while its lines and columns are those of a text. In the octets of a text
the two agree at every offset between characters: line feeds are found among the octets, and the
octets of a line are read as its characters.

* `Utf8.decode_encode`: a text is read back from its octets;
* `Text.StandsIn`: the line on which an offset stands, up to the offset, and what is above;
* `Source.position_of_standsIn`: the position told from these;
* `Position.Precedes`: positions in the order of reading;
* `positions_exact`: positions of offsets between characters, their order, and what a stretch says
  about the line feeds in it.
-/

/-! ### Reading back a text -/

namespace Text.Utf8

section Step

variable {p : Pending} {b : Nat} (hb : p.low ≤ b ∧ b ≤ p.high)
include hb

/-- The last octet that an unfinished character owes. -/
theorem step_last (howed : p.owed = 1) :
    step (some p) b = ([Char.ofNat (gather p.bits b)], none) := by
  unfold step gather
  dsimp only
  rw [if_pos hb, if_pos (Nat.le_of_eq howed)]

/-- An octet that others have to follow. -/
theorem step_more {owed : Nat} (howed : p.owed = owed + 2) :
    step (some p) b = ([], some ⟨owed + 1, 0x80, 0xBF, gather p.bits b⟩) := by
  unfold step gather
  dsimp only
  rw [if_pos hb, if_neg (by omega), howed]
  rfl

end Step

/-- An unfinished character is finished by the octets that it owes. -/
theorem decodeFrom_pending {p : Pending} {b : UInt8} {bs : List UInt8}
    (howed : p.owed = bs.length + 1) (hb : p.low ≤ b.toNat ∧ b.toNat ≤ p.high)
    (hbs : ∀ b ∈ bs, 0x80 ≤ b.toNat ∧ b.toNat ≤ 0xBF) :
    decodeFrom (some p) (b :: bs) =
      [Char.ofNat ((bs.map UInt8.toNat).foldl gather (gather p.bits b.toNat))] := by
  induction bs generalizing p b with
  | nil =>
    rw [decodeFrom, step_last hb howed]
    rfl
  | cons b' bs ih =>
    obtain ⟨hb', hbs⟩ := List.forall_mem_cons.1 hbs
    have rest := ih (p := ⟨bs.length + 1, 0x80, 0xBF, gather p.bits b.toNat⟩) rfl hb' hbs
    rw [decodeFrom, step_more hb howed]
    dsimp only
    rw [List.nil_append, rest, List.map_cons, List.foldl_cons]

/-- A character of several octets, put together from their bits. -/
theorem Announced.decode {v : Nat} {p : Pending} {b b' : UInt8} {bs : List UInt8}
    (h : Announced v p b b' bs) : decode (b :: b' :: bs) = [Char.ofNat v] := by
  rw [Utf8.decode, decodeFrom, step, start, h.lead, ← h.bits]
  exact decodeFrom_pending h.owed h.next h.later

/-- A character is read back from its octets. -/
theorem decode_encodeChar (c : Char) : decode (String.utf8EncodeChar c) = [c] := by
  have self : Char.ofNat c.val.toNat = c := Char.ofNat_toNat c
  rcases encodeChar_cases c with ⟨hc, hone⟩ | ⟨b, b', bs, hseveral, p, hannounced⟩
  · rw [hone, decode, decodeFrom, toNat_octet (by omega), step, start, lead_of_lt hc, self]
    rfl
  · rw [hseveral, hannounced.decode, self]

/-- A text is read back from its octets. -/
theorem decode_encode (cs : List Char) : decode (encode cs) = cs := by
  induction cs with
  | nil => rfl
  | cons c cs ih =>
    rw [encode_cons, decode, decodeFrom_append (after_encodeChar c)]
    show decode (String.utf8EncodeChar c) ++ _ = _
    rw [decode_encodeChar, ih, List.singleton_append]

theorem count_encode (cs : List Char) : (encode cs).count Source.lineFeed = cs.count '\n' := by
  rw [← count_decode, decode_encode]

end Text.Utf8

/-! ### The line of an offset -/

/-- The offset stands behind the characters `line` of its line; `above` are the lines above. -/
structure Text.StandsIn (text : String) (offset : Nat) (above line : List Char) : Prop where
  starts : above ++ line <+: text.toList
  offset : offset = (Utf8.encode (above ++ line)).length
  ended : above = [] ∨ above.getLast? = some '\n'
  within : '\n' ∉ line

/-- Characters are parted behind the last line feed. -/
theorem Text.exists_last_line (cs : List Char) : ∃ above line, cs = above ++ line ∧
    (above = [] ∨ above.getLast? = some '\n') ∧ '\n' ∉ line := by
  induction cs with
  | nil => exact ⟨[], [], rfl, .inl rfl, List.not_mem_nil⟩
  | cons c cs ih =>
    obtain ⟨above, line, rfl, habove, hline⟩ := ih
    cases above with
    | nil =>
      by_cases hc : c = '\n'
      · exact ⟨[c], line, rfl, .inr (by rw [hc]; rfl), hline⟩
      · exact ⟨[], c :: line, rfl, .inl rfl, by simp [Ne.symm hc, hline]⟩
    | cons d above =>
      refine ⟨c :: d :: above, line, rfl, .inr ?_, hline⟩
      simpa using habove

theorem Text.IsCut.exists_standsIn {text : String} {offset : Nat} (h : IsCut text offset) :
    ∃ above line, StandsIn text offset above line := by
  obtain ⟨before, hbefore, rfl⟩ := h
  obtain ⟨above, line, rfl, habove, hline⟩ := exists_last_line before
  exact ⟨above, line, hbefore, rfl, habove, hline⟩

namespace Source

variable (name : String) {text : String}

/-- The octets in front of an offset between characters are those of the characters. -/
theorem take_ofText {before : List Char} (h : before <+: text.toList) :
    (ofText name text).bytes.take (Utf8.encode before).length = Utf8.encode before := by
  obtain ⟨after, hafter⟩ := h
  have bytes : (ofText name text).bytes = Utf8.encode before ++ Utf8.encode after := by
    rw [ofText, ← hafter]
    exact Utf8.encode_append before after
  rw [bytes, List.take_left]

/-- The octets of a line are found behind the last line feed. -/
theorem lastLine_encode {above line : List Char} (habove : above = [] ∨ above.getLast? = some '\n')
    (hline : '\n' ∉ line) : lastLine (Utf8.encode (above ++ line)) = Utf8.encode line := by
  have hfeed : lineFeed ∉ Utf8.encode line := by
    rw [← List.count_eq_zero, Utf8.count_encode, List.count_eq_zero]
    exact hline
  rw [Utf8.encode_append]
  refine lastLine_append ?_ hfeed
  rcases habove with rfl | hlast
  · exact .inl rfl
  · obtain ⟨others, rfl⟩ := List.getLast?_eq_some_iff.1 hlast
    exact .inr ⟨Utf8.encode others, Utf8.encode_append others ['\n']⟩

/-- The position of an offset, told from the characters in front of it. -/
theorem position_of_standsIn {offset : Nat} {above line : List Char}
    (h : StandsIn text offset above line) :
    (ofText name text).position offset = ⟨above.count '\n' + 1, line.length + 1⟩ := by
  have before := take_ofText name h.starts
  rw [h.offset, position_eq, before, Utf8.count_encode, List.count_append,
    List.count_eq_zero.2 h.within, lastLine_encode h.ended h.within, Utf8.decode_encode]

end Source

/-! ### Positions in order -/

/-- The positions in the order of reading: line by line, and in a line by columns. -/
def Position.Precedes (p q : Position) : Prop :=
  p.line < q.line ∨ p.line = q.line ∧ p.column < q.column

instance (p q : Position) : Decidable (p.Precedes q) := inferInstanceAs (Decidable (_ ∨ _))

/-- Of two offsets between characters, the greater one has more of the text in front of it. -/
theorem Text.exists_append_of_lt {cs before before' : List Char} (h : before <+: cs)
    (h' : before' <+: cs) (hlt : (Utf8.encode before).length < (Utf8.encode before').length) :
    ∃ between, before' = before ++ between ∧ between ≠ [] := by
  rcases List.prefix_or_prefix_of_prefix h h' with ⟨between, rfl⟩ | ⟨between, rfl⟩
  · refine ⟨between, rfl, ?_⟩
    rintro rfl
    simp at hlt
  · rw [Utf8.encode_append, List.length_append] at hlt
    omega

/-- Positions follow the offsets: one that is further behind is on a later line if there is a line
feed in between, and else on the same line and in a later column. -/
theorem Source.position_precedes {name text : String} {a b : Nat} (ha : IsCut text a)
    (hb : IsCut text b) (hab : a < b) :
    ((ofText name text).position a).Precedes ((ofText name text).position b) := by
  obtain ⟨above, line, hstands⟩ := ha.exists_standsIn
  obtain ⟨above', line', hstands'⟩ := hb.exists_standsIn
  rw [position_of_standsIn name hstands, position_of_standsIn name hstands']
  obtain ⟨between, hbetween, hne⟩ := exists_append_of_lt hstands.starts hstands'.starts
    (by rwa [← hstands.offset, ← hstands'.offset])
  by_cases hfeed : '\n' ∈ between
  · left
    have hcount := congrArg (List.count '\n') hbetween
    have := List.count_pos_iff.2 hfeed
    simp only [List.count_append, List.count_eq_zero.2 hstands.within,
      List.count_eq_zero.2 hstands'.within] at hcount
    dsimp only
    omega
  · -- The second offset stands on the line of the first.
    have hsame : StandsIn text b above (line ++ between) := {
      starts := by rw [← List.append_assoc, ← hbetween]; exact hstands'.starts
      offset := by rw [← List.append_assoc, ← hbetween]; exact hstands'.offset
      ended := hstands.ended
      within := by simp [hstands.within, hfeed] }
    have hposition := (position_of_standsIn name hstands').symm.trans
      (position_of_standsIn name hsame)
    rw [hposition]
    have := List.length_pos_iff.2 hne
    refine .inr ⟨rfl, ?_⟩
    dsimp only
    rw [List.length_append]
    omega

/-! ### Stretches -/

namespace Source

variable (src : Source) {a b : Nat}

/-- A stretch reaches a later line just if there is a line feed in it. -/
theorem spansLines_location (h : a ≤ b) :
    (src.location a b).spansLines = true ↔ '\n' ∈ (src.slice a b).toList := by
  have := src.line_add_count h
  rw [← List.count_pos_iff, Location.spansLines, decide_eq_true_iff, location]
  dsimp only
  omega

/-- A stretch touches a line after its first for each line feed in it. -/
theorem length_laterLines_location (h : a ≤ b) :
    (src.location a b).laterLines.length = (src.slice a b).toList.count '\n' := by
  have := src.line_add_count h
  rw [Location.laterLines, List.length_range', location]
  dsimp only
  omega

end Source

/-- **Positions.** In the octets of a text, the position of an offset between characters is told by
the line feeds in front of it, and by the characters between the last of these and the offset. Of
two such offsets the greater one has the later position. A stretch between any offsets reaches a
later line just if there is a line feed in it, and it touches one more line for each. -/
theorem positions_exact (name text : String) :
    (∀ offset, IsCut text offset → ∃ above line, StandsIn text offset above line ∧
      above.count '\n' = ((Source.ofText name text).bytes.take offset).count Source.lineFeed ∧
      (Source.ofText name text).position offset = ⟨above.count '\n' + 1, line.length + 1⟩) ∧
    (∀ a b, IsCut text a → IsCut text b → a < b →
      ((Source.ofText name text).position a).Precedes ((Source.ofText name text).position b)) ∧
    ∀ a b, a ≤ b →
      (((Source.ofText name text).location a b).spansLines = true ↔
        '\n' ∈ ((Source.ofText name text).slice a b).toList) ∧
      ((Source.ofText name text).location a b).laterLines.length =
        ((Source.ofText name text).slice a b).toList.count '\n' := by
  refine ⟨fun offset h => ?_, fun a b ha hb => Source.position_precedes ha hb, fun a b h =>
    ⟨Source.spansLines_location _ h, Source.length_laterLines_location _ h⟩⟩
  obtain ⟨above, line, hstands⟩ := h.exists_standsIn
  refine ⟨above, line, hstands, ?_, Source.position_of_standsIn name hstands⟩
  rw [hstands.offset, Source.take_ofText name hstands.starts, Utf8.count_encode, List.count_append,
    List.count_eq_zero.2 hstands.within, Nat.add_zero]

section Sample

/-- A letter of two octets counts as one column, and a line feed still belongs to its line. -/
theorem positions_exact_of_accent :
    IsCut "'é';\nt" 5 ∧ IsCut "'é';\nt" 6 ∧
      (∃ above line, StandsIn "'é';\nt" 5 above line ∧ line.length = 4) ∧
      ((Source.ofText "<input>" "'é';\nt").position 5).Precedes
        ((Source.ofText "<input>" "'é';\nt").position 6) ∧
      ((Source.ofText "<input>" "'é';\nt").location 5 6).laterLines.length = 1 := by
  have cut : IsCut "'é';\nt" 5 ∧ IsCut "'é';\nt" 6 := by decide +kernel
  have position : (Source.ofText "<input>" "'é';\nt").position 5 = ⟨1, 5⟩ := by decide +kernel
  obtain ⟨hexact, horder, hspan⟩ := positions_exact "<input>" "'é';\nt"
  obtain ⟨above, line, hstands, -, hposition⟩ := hexact 5 cut.1
  have hcolumn := congrArg Position.column (position.symm.trans hposition)
  refine ⟨cut.1, cut.2, ⟨above, line, hstands, by dsimp only at hcolumn; omega⟩,
    horder 5 6 cut.1 cut.2 (by decide), ?_⟩
  rw [(hspan 5 6 (by decide)).2]
  decide +kernel

end Sample

end Sveltify
