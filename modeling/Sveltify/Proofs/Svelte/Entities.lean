import Sveltify.Svelte.Escape

namespace Sveltify.Svelte

/-!
# References in attribute values

The string of an attribute may hold references such as `&amp;`. They are copied as they are, and the
characters that would end the value or open an expression become references themselves. These are
put right next to arbitrary text, which may hold parts of references: `&#12` in front of a brace,
say, or `p;` behind a quotation mark.

* `reference?`: the reference that a text starts with;
* `EntityTable`, `EntityTable.decode`: what references stand for, and a text as its reader takes it;
* `escapeAttributeChar_cases`: a character is kept, or becomes one reference that stands for it;
* `escaped_eq_replaceMarks`: escaping as three replacements, one after another;
* `reference?_escaped`: no reference of the text is made, lost or changed next to those;
* `escapeAttribute_transparent`: the escaped text is read like the text.
-/

/-! ### Reading references -/

/-- Is the character one of the name of a reference: an ASCII letter, a digit or `#`? -/
def isNameChar (c : Char) : Bool := c.isAlphanum || c == '#'

/-- The name of the reference that a text starts with, and the text behind it. -/
def reference? : List Char → Option (List Char × List Char)
  | '&' :: cs =>
    match cs.takeWhile isNameChar, cs.dropWhile isNameChar with
    | c :: name, ';' :: rest => some (c :: name, rest)
    | _, _ => none
  | _ => none

/-- A reference is an ampersand, a name and a semicolon. -/
theorem reference?_eq_some_iff {cs name rest : List Char} :
    reference? cs = some (name, rest) ↔
      cs = '&' :: (name ++ ';' :: rest) ∧ name ≠ [] ∧ ∀ c ∈ name, isNameChar c := by
  constructor
  · intro h
    unfold reference? at h
    split at h
    · rename_i cs
      split at h
      · rename_i c name' rest' hname hrest
        obtain ⟨rfl, rfl⟩ := Prod.mk.inj (Option.some.inj h)
        refine ⟨?_, List.cons_ne_nil _ _, fun d hd => ?_⟩
        · rw [← hname, ← hrest, List.takeWhile_append_dropWhile]
        · exact List.all_eq_true.1 List.all_takeWhile d (hname ▸ hd)
      · cases h
    · cases h
  · rintro ⟨rfl, hne, hname⟩
    obtain ⟨c, name, rfl⟩ := List.exists_cons_of_ne_nil hne
    -- No name has a semicolon in it, so the name is all that stands before the first one.
    have hsemi : ¬ isNameChar ';' = true := by decide
    rw [reference?, List.takeWhile_append_of_pos hname, List.dropWhile_append_of_pos hname,
      List.takeWhile_cons_of_neg hsemi, List.dropWhile_cons_of_neg hsemi, List.append_nil]
    rfl

/-- What the names of references stand for. Three of them are known, all others are arbitrary; a
name that means nothing stands for its own reference. -/
structure EntityTable where
  meaning : String → String
  quot : meaning "quot" = "\""
  openBrace : meaning "#123" = "\x7b"
  closeBrace : meaning "#125" = "\x7d"

namespace EntityTable

variable (table : EntityTable)

/-- The characters that a text stands for, from left to right. -/
def decodeChars (cs : List Char) : List Char :=
  match _h : reference? cs with
  | some (name, rest) => (table.meaning (String.ofList name)).toList ++ decodeChars rest
  | none =>
    match cs with
    | [] => []
    | c :: cs => c :: decodeChars cs
termination_by cs.length
decreasing_by
  · rw [(reference?_eq_some_iff.1 _h).1, List.length_cons, List.length_append, List.length_cons]
    omega
  · exact Nat.lt_succ_self _

/-- A text with each reference replaced by what it stands for. -/
def decode (s : String) : String := String.ofList (table.decodeChars s.toList)

@[simp] theorem decodeChars_nil : table.decodeChars [] = [] := by
  rw [decodeChars]
  rfl

/-- A reference is read as what it stands for. -/
theorem decodeChars_of_reference {cs name rest : List Char}
    (h : reference? cs = some (name, rest)) :
    table.decodeChars cs =
      (table.meaning (String.ofList name)).toList ++ table.decodeChars rest := by
  rw [decodeChars]
  split
  · rename_i h'
    cases h.symm.trans h'
    rfl
  · rename_i h'
    cases h.symm.trans h'

/-- Any other character is read as it is. -/
theorem decodeChars_cons {c : Char} {cs : List Char} (h : reference? (c :: cs) = none) :
    table.decodeChars (c :: cs) = c :: table.decodeChars cs := by
  rw [decodeChars]
  split
  · rename_i h'
    cases h.symm.trans h'
  · rfl

end EntityTable

/-! ### Escaped characters -/

/-- The character would end the value of an attribute, or open or close an expression in it. -/
def IsMark (c : Char) : Prop := c = '"' ∨ c = '\x7b' ∨ c = '\x7d'

instance (c : Char) : Decidable (IsMark c) := inferInstanceAs (Decidable (_ ∨ _))

/-- A character is kept, or becomes a reference that stands for it in every table. -/
theorem escapeAttributeChar_cases (c : Char) :
    ¬ IsMark c ∧ escapeAttributeChar c = [c] ∨
      IsMark c ∧ ∃ name, name ≠ [] ∧ (∀ d ∈ name, isNameChar d) ∧
        escapeAttributeChar c = '&' :: (name ++ [';']) ∧
        ∀ table : EntityTable, (table.meaning (String.ofList name)).toList = [c] := by
  by_cases hquot : c = '"'
  · subst hquot
    exact .inr ⟨by decide, "quot".toList, by decide, List.all_eq_true.1 rfl, rfl,
      fun table => by rw [String.ofList_toList, table.quot]; rfl⟩
  by_cases hopen : c = '\x7b'
  · subst hopen
    exact .inr ⟨by decide, "#123".toList, by decide, List.all_eq_true.1 rfl, rfl,
      fun table => by rw [String.ofList_toList, table.openBrace]; rfl⟩
  by_cases hclose : c = '\x7d'
  · subst hclose
    exact .inr ⟨by decide, "#125".toList, by decide, List.all_eq_true.1 rfl, rfl,
      fun table => by rw [String.ofList_toList, table.closeBrace]; rfl⟩
  · refine .inl ⟨by simp [IsMark, hquot, hopen, hclose], ?_⟩
    rw [escapeAttributeChar, if_neg hquot, if_neg hopen, if_neg hclose]

/-- Names hold no mark. -/
theorem not_isMark_of_isNameChar {c : Char} (h : isNameChar c = true) : ¬ IsMark c := by
  rintro (rfl | rfl | rfl) <;> exact absurd h (by decide)

/-- Only marks are escaped. -/
theorem escapeAttributeChar_of_not_isMark {c : Char} (h : ¬ IsMark c) :
    escapeAttributeChar c = [c] := by
  rcases escapeAttributeChar_cases c with ⟨-, hchar⟩ | ⟨hmark, -⟩
  · exact hchar
  · exact absurd hmark h

/-- No character that would end the value is left in it. -/
theorem not_isMark_of_mem_escapeAttributeChar {c d : Char} (h : d ∈ escapeAttributeChar c) :
    ¬ IsMark d := by
  rcases escapeAttributeChar_cases c with ⟨hplain, hchar⟩ | ⟨-, name, -, hname, hchar, -⟩
  · rw [hchar, List.mem_singleton] at h
    exact h ▸ hplain
  · rw [hchar, List.mem_cons, List.mem_append, List.mem_singleton] at h
    rcases h with rfl | hd | rfl
    · decide
    · exact not_isMark_of_isNameChar (hname d hd)
    · decide

/-- The characters of an attribute value. -/
def escaped (cs : List Char) : List Char := cs.flatMap escapeAttributeChar

/-! ### Escaping in steps -/

/-- The characters with a text in place of each `c`. -/
def replaceAll (c : Char) (text : String) (cs : List Char) : List Char :=
  cs.flatMap fun d => if d = c then text.toList else [d]

/-- Any other character stays. -/
theorem replaceAll_of_ne {c d : Char} (h : d ≠ c) (text : String) :
    replaceAll c text [d] = [d] := by
  rw [replaceAll, List.flatMap_singleton, if_neg h]

/-- A function that goes through joined texts one by one goes through them character by
character. -/
theorem flatMap_eq_of_append {f : Char → List Char} {g : List Char → List Char} (hnil : g [] = [])
    (happend : ∀ cs ds, g (cs ++ ds) = g cs ++ g ds) (hchar : ∀ c, f c = g [c]) (cs : List Char) :
    cs.flatMap f = g cs := by
  induction cs with
  | nil => rw [hnil, List.flatMap_nil]
  | cons c cs ih => rw [List.flatMap_cons, hchar, ih, ← happend, List.singleton_append]

/-- The three replacements of an attribute value. -/
def replaceMarks (cs : List Char) : List Char :=
  replaceAll '\x7d' "&#125;" (replaceAll '\x7b' "&#123;" (replaceAll '"' "&quot;" cs))

/-- No reference holds a mark, so a later replacement leaves the earlier ones alone. -/
theorem escapeAttributeChar_eq (c : Char) : escapeAttributeChar c = replaceMarks [c] := by
  by_cases hmark : IsMark c
  · rcases hmark with rfl | rfl | rfl <;> rfl
  · obtain ⟨hquot, hopen, hclose⟩ : c ≠ '"' ∧ c ≠ '\x7b' ∧ c ≠ '\x7d' := by
      simpa only [IsMark, not_or] using hmark
    rw [escapeAttributeChar_of_not_isMark hmark, replaceMarks, replaceAll_of_ne hquot,
      replaceAll_of_ne hopen, replaceAll_of_ne hclose]

/-- All characters are escaped at once as by one replacement after another. -/
theorem escaped_eq_replaceMarks (cs : List Char) : escaped cs = replaceMarks cs :=
  flatMap_eq_of_append rfl
    (fun _ _ => by simp only [replaceMarks, replaceAll, List.flatMap_append])
    escapeAttributeChar_eq cs

/-! ### References of escaped text -/

theorem escaped_cons (c : Char) (cs : List Char) :
    escaped (c :: cs) = escapeAttributeChar c ++ escaped cs :=
  List.flatMap_cons

theorem escaped_cons_of_not_isMark {c : Char} (h : ¬ IsMark c) (cs : List Char) :
    escaped (c :: cs) = c :: escaped cs := by
  rw [escaped_cons, escapeAttributeChar_of_not_isMark h, List.singleton_append]

/-- Text without marks stays. -/
theorem escaped_append_of_not_isMark {name : List Char} (h : ∀ c ∈ name, ¬ IsMark c)
    (cs : List Char) : escaped (name ++ cs) = name ++ escaped cs := by
  induction name with
  | nil => rfl
  | cons c name ih =>
    obtain ⟨hc, hname⟩ := List.forall_mem_cons.1 h
    rw [List.cons_append, escaped_cons_of_not_isMark hc, ih hname, List.cons_append]

/-- A first character other than the ampersand is one of the text: each reference that escaping puts
there starts with an ampersand. -/
theorem exists_of_escaped_eq_cons {cs ds : List Char} {d : Char} (hd : d ≠ '&')
    (h : escaped cs = d :: ds) : ∃ rest, cs = d :: rest ∧ ds = escaped rest := by
  cases cs with
  | nil => cases h
  | cons c cs =>
    rw [escaped_cons] at h
    rcases escapeAttributeChar_cases c with ⟨-, hchar⟩ | ⟨-, name, -, -, hchar, -⟩
    · rw [hchar, List.singleton_append] at h
      obtain ⟨rfl, rfl⟩ := List.cons.inj h
      exact ⟨cs, rfl, rfl⟩
    · rw [hchar, List.cons_append] at h
      exact absurd (List.cons.inj h).1.symm hd

/-- It was there before. -/
theorem exists_of_escaped_eq_append {cs name ds : List Char} (hname : '&' ∉ name)
    (h : escaped cs = name ++ ds) : ∃ rest, cs = name ++ rest ∧ ds = escaped rest := by
  induction name generalizing cs with
  | nil => exact ⟨cs, rfl, h.symm⟩
  | cons d name ih =>
    rw [List.mem_cons, not_or] at hname
    obtain ⟨cs, rfl, hcs⟩ := exists_of_escaped_eq_cons (Ne.symm hname.1) h
    obtain ⟨rest, rfl, hrest⟩ := ih hname.2 hcs.symm
    exact ⟨rest, rfl, hrest⟩

/-- Where the text starts with a reference, the escaped text starts with the same one. -/
theorem reference?_escaped {cs name rest : List Char} (h : reference? cs = some (name, rest)) :
    reference? (escaped cs) = some (name, escaped rest) := by
  obtain ⟨rfl, hne, hname⟩ := reference?_eq_some_iff.1 h
  refine reference?_eq_some_iff.2 ⟨?_, hne, hname⟩
  rw [escaped_cons_of_not_isMark (by decide),
    escaped_append_of_not_isMark fun c hc => not_isMark_of_isNameChar (hname c hc),
    escaped_cons_of_not_isMark (by decide)]

/-- Where it starts with none, and its first character is kept, no reference is made. -/
theorem reference?_escaped_eq_none {c : Char} {cs : List Char} (hc : ¬ IsMark c)
    (h : reference? (c :: cs) = none) : reference? (escaped (c :: cs)) = none := by
  rw [Option.eq_none_iff_forall_ne_some]
  rintro ⟨name, rest⟩ hreference
  obtain ⟨hcs, hne, hname⟩ := reference?_eq_some_iff.1 hreference
  rw [escaped_cons_of_not_isMark hc] at hcs
  obtain ⟨rfl, hrest⟩ := List.cons.inj hcs
  have hamp : '&' ∉ name := fun hmem => absurd (hname _ hmem) (by decide)
  obtain ⟨behind, rfl, hbehind⟩ := exists_of_escaped_eq_append hamp hrest
  obtain ⟨rest', rfl, -⟩ := exists_of_escaped_eq_cons (by decide) hbehind.symm
  cases h.symm.trans (reference?_eq_some_iff.2 ⟨rfl, hne, hname⟩)

/-- A mark is read back from its reference. -/
theorem EntityTable.decodeChars_escaped_mark (table : EntityTable) {c : Char} (hc : IsMark c)
    (cs : List Char) :
    table.decodeChars (escaped (c :: cs)) = c :: table.decodeChars (escaped cs) := by
  rcases escapeAttributeChar_cases c with ⟨hplain, -⟩ | ⟨-, name, hne, hname, hchar, hmeaning⟩
  · exact absurd hc hplain
  · have hreference : reference? (escaped (c :: cs)) = some (name, escaped cs) :=
      reference?_eq_some_iff.2 ⟨by simp [escaped_cons, hchar], hne, hname⟩
    rw [table.decodeChars_of_reference hreference, hmeaning, List.singleton_append]

/-- Escaped text is read like the text. The induction follows the reader along the text. -/
theorem EntityTable.decodeChars_escaped (table : EntityTable) (cs : List Char) :
    table.decodeChars (escaped cs) = table.decodeChars cs := by
  fun_induction table.decodeChars cs with
  | case1 cs name rest h ih =>
    rw [table.decodeChars_of_reference (reference?_escaped h), ih]
  | case2 h => exact table.decodeChars_nil
  | case3 c cs h ih =>
    by_cases hc : IsMark c
    · rw [table.decodeChars_escaped_mark hc, ih]
    · have hnone := reference?_escaped_eq_none hc h
      rw [escaped_cons_of_not_isMark hc] at hnone ⊢
      rw [table.decodeChars_cons hnone, ih]

/-! ### Attribute values -/

/-- **Attribute values.** An escaped value holds no quotation mark and no brace, so it neither ends
the attribute nor opens an expression; and whatever the other names stand for, it is read like the
value itself. -/
theorem escapeAttribute_transparent (table : EntityTable) (value : String) :
    (∀ c ∈ (escapeAttribute value).toList, c ≠ '"' ∧ c ≠ '\x7b' ∧ c ≠ '\x7d') ∧
      table.decode (escapeAttribute value) = table.decode value := by
  have chars : (escapeAttribute value).toList = escaped value.toList := String.toList_ofList
  constructor
  · intro c hc
    rw [chars] at hc
    obtain ⟨d, -, hd⟩ := List.mem_flatMap.1 hc
    simpa only [IsMark, not_or] using not_isMark_of_mem_escapeAttributeChar hd
  · rw [EntityTable.decode, EntityTable.decode, chars, table.decodeChars_escaped]

section Sample

/-- Some of the names that markup knows. A reference with any other name is kept. -/
def knownEntities : EntityTable where
  meaning name :=
    ([("quot", "\""), ("#123", "\x7b"), ("#125", "\x7d"), ("amp", "&"), ("lt", "<")].lookup
      name).getD s!"&{name};"
  quot := rfl
  openBrace := rfl
  closeBrace := rfl

/-- References that are broken up by a mark stay so, and whole ones keep their meaning. -/
theorem escapeAttribute_transparent_of_parts :
    escapeAttribute "&am\"p; &#12\x7b3; &amp;" = "&am&quot;p; &#12&#123;3; &amp;" ∧
      knownEntities.decode "&am&quot;p; &#12&#123;3; &amp;" = "&am\"p; &#12\x7b3; &" := by
  have hescaped : escapeAttribute "&am\"p; &#12\x7b3; &amp;" =
      "&am&quot;p; &#12&#123;3; &amp;" := by
    decide +kernel
  have hread := (escapeAttribute_transparent knownEntities "&am\"p; &#12\x7b3; &amp;").2
  rw [hescaped] at hread
  exact ⟨hescaped, hread.trans (by decide +kernel)⟩

end Sample

end Sveltify.Svelte
