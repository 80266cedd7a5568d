import Mathlib.Logic.Function.Defs
import Sveltify.Source

namespace Sveltify

open Text

/-!
# Texts

Texts that are put together can be taken apart again: a number is known from the text that ends in
it, and a slice of a source is made of the slices that it is cut into, unless a cut is inside a
character.

* `Text.numbered_injective`: a text that ends in a number;
* `Utf8.after`: where the reader of octets stands after some of them;
* `Source.IsBoundary`: the offset is not inside a character;
* `Source.slice_append`: slices that meet at a boundary;
* `Utf8.encodeChar_cases`: the octets of a character;
* `Text.isCut_iff`: in the octets of a text, these are the offsets between its characters.
-/

/-! ### Numbers -/

/-- Texts that differ in the number at their end are different. -/
theorem Text.numbered_injective (stem : String) :
    Function.Injective fun n : Nat => stem ++ n.repr := by
  intro i j h
  have numbers : i.repr = j.repr := (String.append_right_inj stem).1 h
  calc
    i = Nat.ofDigitChars 10 (Nat.toDigits 10 i) 0 := Nat.ofDigitChars_ten_toDigits.symm
    _ = Nat.ofDigitChars 10 (Nat.toDigits 10 j) 0 := by
      rw [← Nat.toList_repr, ← Nat.toList_repr, numbers]
    _ = j := Nat.ofDigitChars_ten_toDigits

/-! ### Reading octets in two parts -/

namespace Text.Utf8

/-- Where the reader stands after octets. -/
def after (q : Option Pending) (bs : List UInt8) : Option Pending :=
  bs.foldl (fun q b => (step q b.toNat).2) q

theorem after_append (q : Option Pending) (as bs : List UInt8) :
    after q (as ++ bs) = after (after q as) bs :=
  List.foldl_append

/-- Octets are read in two parts if the first ends between characters. -/
theorem decodeFrom_append {q : Option Pending} {as : List UInt8} (h : after q as = none)
    (bs : List UInt8) : decodeFrom q (as ++ bs) = decodeFrom q as ++ decode bs := by
  induction as generalizing q with
  | nil =>
    obtain rfl : q = none := h
    rfl
  | cons a as ih =>
    have rest := ih (q := (step q a.toNat).2) h
    rw [List.cons_append, decodeFrom, decodeFrom]
    dsimp only
    rw [rest, List.append_assoc]

end Text.Utf8

/-! ### Slices of a source -/

namespace Source

variable {src : Source} {a b c : Nat}

/-- The offset is not inside a character. -/
def IsBoundary (src : Source) (offset : Nat) : Prop :=
  Utf8.after none (src.bytes.take offset) = none

instance (offset : Nat) : Decidable (src.IsBoundary offset) :=
  inferInstanceAs (Decidable (_ = _))

theorem take_eq_append (hab : a ≤ b) :
    src.bytes.take b = src.bytes.take a ++ src.octets a b := by
  have := List.take_append_drop a (src.bytes.take b)
  rw [List.take_take, Nat.min_eq_left hab] at this
  exact this.symm

/-- Octets up to a place and on from it. -/
theorem octets_append (hab : a ≤ b) (hbc : b ≤ c) :
    src.octets a c = src.octets a b ++ src.octets b c := by
  have whole : src.bytes.take c = src.bytes.take b ++ (src.bytes.take c).drop b :=
    take_eq_append hbc
  have rest : ((src.bytes.take c).drop b).drop (a - (src.bytes.take b).length) =
      (src.bytes.take c).drop b := by
    rw [List.drop_drop, List.length_take]
    by_cases h : b ≤ src.bytes.length
    · rw [Nat.min_eq_left h, Nat.sub_eq_zero_of_le hab, Nat.add_zero]
    · rw [List.drop_eq_nil_of_le (by simp; omega), List.drop_eq_nil_of_le (by simp; omega)]
  unfold octets
  rw [whole, List.drop_append, ← whole, rest]

/-- Between boundaries no character is cut. -/
theorem after_octets (hab : a ≤ b) (ha : src.IsBoundary a) (hb : src.IsBoundary b) :
    Utf8.after none (src.octets a b) = none := by
  have : Utf8.after none (src.bytes.take b) = none := hb
  rwa [take_eq_append hab, Utf8.after_append, show Utf8.after none (src.bytes.take a) = none from ha] at this

@[simp] theorem slice_self (src : Source) (a : Nat) : src.slice a a = "" := by
  have none : src.octets a a = [] := List.drop_eq_nil_of_le (List.length_take_le a src.bytes)
  rw [slice, sliceChars, none, Utf8.decode_nil, String.ofList_nil]

/-- Slices that meet at a boundary make up a slice. -/
theorem slice_append (hab : a ≤ b) (hbc : b ≤ c) (ha : src.IsBoundary a) (hb : src.IsBoundary b) :
    src.slice a b ++ src.slice b c = src.slice a c := by
  have parts : src.sliceChars a c = src.sliceChars a b ++ src.sliceChars b c := by
    unfold sliceChars
    rw [octets_append hab hbc]
    exact Utf8.decodeFrom_append (after_octets hab ha hb) _
  unfold slice
  rw [parts, String.ofList_append]

end Source

/-! ### Boundaries of a text -/

namespace Text.Utf8

@[simp] theorem after_nil (q : Option Pending) : after q [] = q := rfl

@[simp] theorem after_cons (q : Option Pending) (b : UInt8) (bs : List UInt8) :
    after q (b :: bs) = after (step q b.toNat).2 bs := rfl

/-- An unfinished character is finished by the last octet that it owes. -/
theorem after_take_pending {p : Pending} {b : UInt8} {bs : List UInt8}
    (howed : p.owed = bs.length + 1) (hb : p.low ≤ b.toNat ∧ b.toNat ≤ p.high)
    (hbs : ∀ b ∈ bs, 0x80 ≤ b.toNat ∧ b.toNat ≤ 0xBF) (k : Nat) :
    after (some p) ((b :: bs).take k) = none ↔ bs.length < k := by
  induction bs generalizing p b k with
  | nil =>
    cases k with
    | zero => simp
    | succ k => simp [step, hb, howed]
  | cons b' bs ih =>
    cases k with
    | zero => simp
    | succ k =>
      have rest := hbs b' (by simp)
      simp only [List.length_cons] at howed
      simp only [List.take_succ_cons, after_cons, step, hb, and_self, if_true, howed,
        if_neg (show ¬ bs.length + 1 + 1 ≤ 1 by omega), List.length_cons]
      rw [ih rfl rest fun d hd => hbs d (by simp [hd])]
      omega

/-- The bits of a code point, with those of one more octet. -/
def gather (bits b : Nat) : Nat := bits * 64 + (b - 0x80)

/-- A later octet adds six bits. -/
theorem gather_add (bits m : Nat) : gather bits (m + 128) = bits * 64 + m := by
  unfold gather
  omega

/-- The octets `b`, `b'` and `bs` are those of one character: the first tells how many follow, and
the bits of all of them make up the code point `v`. -/
structure Announced (v : Nat) (p : Pending) (b b' : UInt8) (bs : List UInt8) : Prop where
  lead : lead b.toNat = .more p
  owed : p.owed = bs.length + 1
  next : p.low ≤ b'.toNat ∧ b'.toNat ≤ p.high
  later : ∀ b ∈ bs, 0x80 ≤ b.toNat ∧ b.toNat ≤ 0xBF
  bits : (bs.map UInt8.toNat).foldl gather (gather p.bits b'.toNat) = v

/-- What the first octet of a character owes, the others pay. -/
theorem Announced.after_take {v : Nat} {p : Pending} {b b' : UInt8} {bs : List UInt8}
    (h : Announced v p b b' bs) (k : Nat) :
    after none ((b :: b' :: bs).take k) = none ↔ k = 0 ∨ (b :: b' :: bs).length ≤ k := by
  cases k with
  | zero => simp
  | succ k =>
    rw [List.take_succ_cons, after_cons, step, start, h.lead]
    rw [after_take_pending h.owed h.next h.later, List.length_cons, List.length_cons]
    omega

/-- A first octet in front of one more. -/
theorem lead_two {b : Nat} (hb : 0xC2 ≤ b) (hb' : b < 0xE0) :
    lead b = .more ⟨1, 0x80, 0xBF, b - 0xC0⟩ := by
  rw [lead, if_neg (by omega), if_neg (by omega), if_pos hb']

/-- A first octet in front of two more, of which the first is `b'`. -/
theorem exists_lead_three {b b' : Nat} (hb : 0xE0 ≤ b) (hb' : b < 0xF0)
    (hnext : 0x80 ≤ b' ∧ b' ≤ 0xBF) (hlong : b = 0xE0 → 0xA0 ≤ b')
    (hsurrogate : b = 0xED → b' ≤ 0x9F) :
    ∃ p, lead b = .more p ∧ p.owed = 2 ∧ p.low ≤ b' ∧ b' ≤ p.high := by
  rw [lead, if_neg (by omega), if_neg (by omega), if_neg (by omega)]
  by_cases hE0 : b = 0xE0
  · exact ⟨_, if_pos hE0, rfl, hlong hE0, hnext.2⟩
  · by_cases hED : b = 0xED
    · exact ⟨_, by rw [if_neg hE0, if_pos hED], rfl, hnext.1, hsurrogate hED⟩
    · exact ⟨_, by rw [if_neg hE0, if_neg hED, if_pos hb'], rfl, hnext⟩

/-- A first octet in front of three more, of which the first is `b'`. -/
theorem exists_lead_four {b b' : Nat} (hb : 0xF0 ≤ b) (hb' : b ≤ 0xF4)
    (hnext : 0x80 ≤ b' ∧ b' ≤ 0xBF) (hlong : b = 0xF0 → 0x90 ≤ b')
    (hlarge : b = 0xF4 → b' ≤ 0x8F) :
    ∃ p, lead b = .more p ∧ p.owed = 3 ∧ p.low ≤ b' ∧ b' ≤ p.high := by
  rw [lead, if_neg (by omega), if_neg (by omega), if_neg (by omega), if_neg (by omega),
    if_neg (by omega), if_neg (by omega)]
  by_cases hF0 : b = 0xF0
  · exact ⟨_, if_pos hF0, rfl, hlong hF0, hnext.2⟩
  · by_cases hF4 : b = 0xF4
    · exact ⟨_, by rw [if_neg hF0, if_neg (by omega), if_pos hF4], rfl, hnext.1, hlarge hF4⟩
    · exact ⟨_, by rw [if_neg hF0, if_pos (by omega)], rfl, hnext⟩

/-- The number that marks the first octet in front of others, by how many there are. -/
def leadMark : Nat → Nat
  | 1 => 0xC0
  | 2 => 0xE0
  | _ => 0xF0

/-- What is read of a code point in the first of several octets. -/
theorem eq_bits_add_of_lead {b : Nat} {p : Pending} (h : lead b = .more p) :
    b = p.bits + leadMark p.owed := by
  revert h
  fun_cases lead b
  all_goals
    intro h
    cases h
  all_goals
    simp only [leadMark]
    omega

theorem toNat_octet {m : Nat} (hm : m < 256) : (UInt8.ofNat m).toNat = m := by
  simpa using Nat.mod_eq_of_lt hm

/-- Later octets lie in their range. -/
theorem later_octet (m : Nat) : 0x80 ≤ (UInt8.ofNat (m % 64 + 128)).toNat ∧
    (UInt8.ofNat (m % 64 + 128)).toNat ≤ 0xBF := by
  rw [toNat_octet (by omega)]
  omega

/-- The octets `b`, `m % 64 + 128` and `bs` are those of the code point that their bits make up. -/
theorem exists_announced {b m v : Nat} {bs : List UInt8} (hb : b < 256)
    (hbs : ∀ b ∈ bs, 0x80 ≤ b.toNat ∧ b.toNat ≤ 0xBF)
    (hlead : ∃ p, lead b = .more p ∧ p.owed = bs.length + 1 ∧ p.low ≤ m % 64 + 128 ∧
      m % 64 + 128 ≤ p.high)
    (hv : ∀ bits, b = bits + leadMark (bs.length + 1) →
      (bs.map UInt8.toNat).foldl gather (bits * 64 + m % 64) = v) :
    ∃ p, Announced v p (UInt8.ofNat b) (UInt8.ofNat (m % 64 + 128)) bs := by
  obtain ⟨p, hp, howed, hnext⟩ := hlead
  have hsecond : (UInt8.ofNat (m % 64 + 128)).toNat = m % 64 + 128 := toNat_octet (by omega)
  have hbits := eq_bits_add_of_lead hp
  rw [howed] at hbits
  exact ⟨p, {
    lead := by rw [toNat_octet hb, hp]
    owed := howed
    next := by rwa [hsecond]
    later := hbs
    bits := by rw [hsecond, gather_add, hv p.bits hbits] }⟩

/-- The octets of a character: a single one, or several of which the first announces the others. -/
theorem encodeChar_cases (c : Char) :
    c.val.toNat < 0x80 ∧ String.utf8EncodeChar c = [UInt8.ofNat c.val.toNat] ∨
    ∃ b b' bs, String.utf8EncodeChar c = b :: b' :: bs ∧
      ∃ p, Announced c.val.toNat p b b' bs := by
  have valid : c.val.toNat < 0xD800 ∨ 0xDFFF < c.val.toNat ∧ c.val.toNat < 0x110000 := c.valid
  unfold String.utf8EncodeChar
  generalize c.val.toNat = v at valid
  dsimp only
  -- A character takes one to four octets, by the size of its code point.
  by_cases one : v ≤ 0x7F
  · exact .inl ⟨by omega, if_pos one⟩
  rw [if_neg one]
  right
  by_cases two : v ≤ 0x7FF
  · rw [if_pos two]
    refine ⟨_, _, _, rfl, exists_announced (by omega) (by simp)
      ⟨_, lead_two (by omega) (by omega), rfl, by dsimp only; omega, by dsimp only; omega⟩
      fun bits hbits => ?_⟩
    simp only [leadMark, List.length_nil, Nat.zero_add, List.map_nil, List.foldl_nil] at hbits ⊢
    omega
  rw [if_neg two]
  by_cases three : v ≤ 0xFFFF
  · rw [if_pos three]
    refine ⟨_, _, _, rfl, exists_announced (by omega) (by simpa using later_octet v)
      (exists_lead_three ?_ ?_ ?_ ?_ ?_) fun bits hbits => ?_⟩
    case refine_6 =>
      simp only [leadMark, List.length_cons, List.length_nil, List.map_cons, List.map_nil,
        List.foldl_cons, List.foldl_nil] at hbits ⊢
      rw [toNat_octet (by omega), gather_add]
      omega
    all_goals omega
  · rw [if_neg three]
    refine ⟨_, _, _, rfl,
      exists_announced (by omega) (by simpa using ⟨later_octet (v / 64), later_octet v⟩)
        (exists_lead_four ?_ ?_ ?_ ?_ ?_) fun bits hbits => ?_⟩
    case refine_6 =>
      simp only [leadMark, List.length_cons, List.length_nil, List.map_cons, List.map_nil,
        List.foldl_cons, List.foldl_nil] at hbits ⊢
      rw [toNat_octet (by omega), toNat_octet (by omega), gather_add, gather_add]
      omega
    all_goals omega

theorem lead_of_lt {v : Nat} (h : v < 0x80) : lead v = .done (Char.ofNat v) := if_pos h

/-- Before a character is complete, the reader does not stand between characters. -/
theorem after_take_encodeChar (c : Char) (k : Nat) :
    after none ((String.utf8EncodeChar c).take k) = none ↔
      k = 0 ∨ (String.utf8EncodeChar c).length ≤ k := by
  rcases encodeChar_cases c with ⟨hc, hone⟩ | ⟨b, b', bs, hseveral, p, hannounced⟩
  · rw [hone]
    cases k with
    | zero => simp
    | succ k =>
      rw [List.take_succ_cons, after_cons, toNat_octet (by omega), step, start, lead_of_lt hc]
      simp
  · rw [hseveral, hannounced.after_take]

theorem encode_cons (c : Char) (cs : List Char) :
    encode (c :: cs) = String.utf8EncodeChar c ++ encode cs :=
  List.flatMap_cons

theorem encode_append (cs ds : List Char) : encode (cs ++ ds) = encode cs ++ encode ds :=
  List.flatMap_append

/-- A character is read to its end. -/
theorem after_encodeChar (c : Char) : after none (String.utf8EncodeChar c) = none := by
  have := (after_take_encodeChar c (String.utf8EncodeChar c).length).2 (.inr (Nat.le_refl _))
  rwa [List.take_length] at this

/-- So is a text. -/
theorem after_encode (cs : List Char) : after none (encode cs) = none := by
  induction cs with
  | nil => rfl
  | cons c cs ih => rw [encode_cons, after_append, after_encodeChar, ih]

end Text.Utf8

/-- The offset lies between two characters of the text or at one of its ends. -/
def Text.IsCut (text : String) (offset : Nat) : Prop :=
  ∃ before, before <+: text.toList ∧ offset = (Utf8.encode before).length

theorem Source.exists_encode_of_isBoundary {cs : List Char} {offset : Nat}
    (h : Utf8.after none ((Utf8.encode cs).take offset) = none) :
    ∃ before, before <+: cs ∧ (Utf8.encode cs).take offset = Utf8.encode before := by
  induction cs generalizing offset with
  | nil => exact ⟨[], List.prefix_refl _, List.take_nil⟩
  | cons c cs ih =>
    rw [Utf8.encode_cons] at h ⊢
    rcases Nat.lt_or_ge offset (String.utf8EncodeChar c).length with hlt | hge
    · -- Inside the first character the reader owes octets.
      rw [List.take_append_of_le_length (Nat.le_of_lt hlt), Utf8.after_take_encodeChar] at h
      obtain rfl : offset = 0 := by omega
      exact ⟨[], List.nil_prefix, rfl⟩
    · rw [List.take_append, List.take_of_length_le hge] at h ⊢
      rw [Utf8.after_append, Utf8.after_encodeChar] at h
      obtain ⟨before, hbefore, htake⟩ := ih h
      exact ⟨c :: before, List.cons_prefix_cons.2 ⟨rfl, hbefore⟩, by rw [htake, Utf8.encode_cons]⟩

/-- The boundaries in the octets of a text are the offsets between its characters. -/
theorem Text.isCut_iff {name text : String} {offset : Nat} :
    IsCut text offset ↔ (Source.ofText name text).IsBoundary offset ∧
      offset ≤ (Source.ofText name text).bytes.length := by
  constructor
  · rintro ⟨before, ⟨rest, hrest⟩, rfl⟩
    have bytes : (Source.ofText name text).bytes = Utf8.encode before ++ Utf8.encode rest := by
      rw [Source.ofText, ← hrest]
      exact Utf8.encode_append before rest
    refine ⟨?_, by simp [bytes]⟩
    rw [Source.IsBoundary, bytes, List.take_left, Utf8.after_encode]
  · rintro ⟨hboundary, hle⟩
    obtain ⟨before, hbefore, htake⟩ := Source.exists_encode_of_isBoundary hboundary
    refine ⟨before, hbefore, ?_⟩
    rw [← htake, List.length_take]
    exact (Nat.min_eq_left hle).symm

instance (text : String) (offset : Nat) : Decidable (Text.IsCut text offset) :=
  decidable_of_iff _ (@Text.isCut_iff text text offset).symm

end Sveltify
