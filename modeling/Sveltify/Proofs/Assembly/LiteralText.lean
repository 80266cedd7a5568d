import Mathlib.Logic.Function.Defs
import Sveltify.Assembly.Markup
import Sveltify.Proofs.Render.Builders
import Sveltify.Proofs.Svelte.Entities

namespace Sveltify

/-!
# String literals shown as text

A string literal between braces is shown character by character, so each character that would mean
something in markup is written as a reference. Some of these references hold characters that are
replaced themselves, so replacing one sort of character after another is right in one order only.

* `textReferences`, `readText`: the references, and escaped text as a reader of markup takes it;
* `replaceInTurn`, `escapeTextChar_eq`: escaping as four replacements, one after another;
* `readFrom_escapeTextChar`: a character is read back whatever follows it;
* `append_eq_escapeTextChar`: an ampersand in escaped text is the start of a reference;
* `HoldsLiteral`: a literal between the braces of a child;
* `literal_text_survives`: what becomes of the contents of a literal.
-/

namespace Svelte

/-! ### Reading escaped text -/

/-- The references of escaped text, each with the character that it stands for. -/
def textReferences : List (List Char × Char) :=
  [("&amp;".toList, '&'), ("&lt;".toList, '<'), ("&#123;".toList, '\x7b'),
   ("&#125;".toList, '\x7d')]

/-- The reference that a text starts with. -/
def textReference? (cs : List Char) : Option (List Char × Char) :=
  textReferences.find? fun r => r.1.isPrefixOf cs

/-- The characters that a text stands for, from left to right. Its first `skip` characters belong to
a reference that is already read. -/
def readFrom : Nat → List Char → List Char
  | _, [] => []
  | skip + 1, _ :: cs => readFrom skip cs
  | 0, c :: cs =>
    match textReference? (c :: cs) with
    | some r => r.2 :: readFrom (r.1.length - 1) cs
    | none => c :: readFrom 0 cs

/-- Escaped text as a reader of markup takes it. -/
def readText (s : String) : String := String.ofList (readFrom 0 s.toList)

/-- A character that has a reference is escaped by it, and any other stands for itself. -/
theorem escapeTextChar_cases (c : Char) :
    (∃ r ∈ textReferences, c = r.2 ∧ escapeTextChar c = r.1) ∨
      (∀ r ∈ textReferences, c ≠ r.2) ∧ escapeTextChar c = [c] := by
  unfold escapeTextChar textReferences
  split
  · exact .inl ⟨("&amp;".toList, '&'), by simp, ‹_›, rfl⟩
  split
  · exact .inl ⟨("&lt;".toList, '<'), by simp, ‹_›, rfl⟩
  split
  · exact .inl ⟨("&#123;".toList, '\x7b'), by simp, ‹_›, rfl⟩
  split
  · exact .inl ⟨("&#125;".toList, '\x7d'), by simp, ‹_›, rfl⟩
  · exact .inr ⟨by simp [*], rfl⟩

/-- What holds of each of the references. -/
theorem forall_textReferences {P : List Char × Char → Prop} : (∀ r ∈ textReferences, P r) ↔
    P ("&amp;".toList, '&') ∧ P ("&lt;".toList, '<') ∧ P ("&#123;".toList, '\x7b') ∧
      P ("&#125;".toList, '\x7d') := by
  simp only [textReferences, List.forall_mem_cons, List.not_mem_nil, false_implies, implies_true,
    and_true]

/-- A reference is read as its character. -/
theorem readFrom_reference (cs : List Char) :
    ∀ r ∈ textReferences, readFrom 0 (r.1 ++ cs) = r.2 :: readFrom 0 cs :=
  forall_textReferences.2 ⟨rfl, rfl, rfl, rfl⟩

theorem textReference?_eq_none {c : Char} (h : c ≠ '&') (cs : List Char) :
    textReference? (c :: cs) = none := by
  simp [textReference?, textReferences, List.isPrefixOf, Ne.symm h]

/-- A character is read back from its escaped form, whatever follows. -/
theorem readFrom_escapeTextChar (c : Char) (cs : List Char) :
    readFrom 0 (escapeTextChar c ++ cs) = c :: readFrom 0 cs := by
  rcases escapeTextChar_cases c with ⟨r, hr, rfl, hform⟩ | ⟨hplain, hform⟩
  · rw [hform, readFrom_reference cs r hr]
  · have hamp : c ≠ '&' := (forall_textReferences.1 hplain).1
    rw [hform, List.singleton_append, readFrom, textReference?_eq_none hamp]

/-- All characters are read back. -/
theorem readFrom_flatMap (cs : List Char) : readFrom 0 (cs.flatMap escapeTextChar) = cs := by
  induction cs with
  | nil => rfl
  | cons c cs ih => rw [List.flatMap_cons, readFrom_escapeTextChar, ih]

/-- Escaped text is read as the text that it was. -/
theorem readText_escapeText (s : String) : readText (escapeText s) = s := by
  rw [readText, escapeText, String.toList_ofList, readFrom_flatMap, String.ofList_toList]

/-! ### Escaping in steps -/

/-- The four replacements, the ampersand first. -/
def replaceInTurn (cs : List Char) : List Char :=
  replaceAll '\x7d' "&#125;" (replaceAll '\x7b' "&#123;" (replaceAll '<' "&lt;"
    (replaceAll '&' "&amp;" cs)))

/-- The ampersand goes first, so no reference is replaced again. -/
theorem escapeTextChar_eq (c : Char) : escapeTextChar c = replaceInTurn [c] := by
  rcases escapeTextChar_cases c with ⟨r, hr, rfl, hform⟩ | ⟨hplain, hform⟩
  · have form : ∀ r ∈ textReferences, r.1 = replaceInTurn [r.2] :=
      forall_textReferences.2 ⟨rfl, rfl, rfl, rfl⟩
    rw [hform, form r hr]
  · obtain ⟨hamp, hlt, hopen, hclose⟩ := forall_textReferences.1 hplain
    rw [hform, replaceInTurn, replaceAll_of_ne hamp, replaceAll_of_ne hlt, replaceAll_of_ne hopen,
      replaceAll_of_ne hclose]

/-- All characters are escaped at once as by one replacement after another. -/
theorem flatMap_escapeTextChar (cs : List Char) :
    cs.flatMap escapeTextChar = replaceInTurn cs :=
  flatMap_eq_of_append rfl
    (fun _ _ => by simp only [replaceInTurn, replaceAll, List.flatMap_append])
    escapeTextChar_eq cs

/-! ### What escaped text holds -/

/-- The character neither opens a tag nor is a brace. -/
def IsShown (c : Char) : Prop := c ≠ '<' ∧ c ≠ '\x7b' ∧ c ≠ '\x7d'

instance (c : Char) : Decidable (IsShown c) := inferInstanceAs (Decidable (_ ∧ _))

/-- Escaped text opens nothing. -/
theorem isShown_of_mem_escapeTextChar {c d : Char} (h : d ∈ escapeTextChar c) : IsShown d := by
  rcases escapeTextChar_cases c with ⟨r, hr, rfl, hform⟩ | ⟨hplain, hform⟩
  · have shown : ∀ r ∈ textReferences, ∀ d ∈ r.1, IsShown d :=
      forall_textReferences.2 (by simp [IsShown])
    exact shown r hr d (hform ▸ h)
  · obtain rfl : d = c := List.mem_singleton.1 (hform ▸ h)
    exact (forall_textReferences.1 hplain).2

/-- An ampersand in an escaped character is the first of a reference, which is all there is. -/
theorem append_eq_escapeTextChar {c : Char} {before after : List Char}
    (h : escapeTextChar c = before ++ '&' :: after) :
    before = [] ∧ ∃ r ∈ textReferences, r.1 = '&' :: after := by
  rcases escapeTextChar_cases c with ⟨r, hr, rfl, hform⟩ | ⟨hplain, hform⟩
  · have single : ∀ r ∈ textReferences, '&' ∉ r.1.tail :=
      forall_textReferences.2 ⟨by decide, by decide, by decide, by decide⟩
    rw [hform] at h
    cases before with
    | nil => exact ⟨rfl, r, hr, h⟩
    | cons b before => exact absurd (by simp [h]) (single r hr)
  · have hmem : '&' ∈ [c] := by simp [← hform, h]
    exact absurd (List.mem_singleton.1 hmem).symm (forall_textReferences.1 hplain).1

/-- An ampersand in escaped text is the first character of a reference. -/
theorem exists_reference {cs before after : List Char}
    (h : cs.flatMap escapeTextChar = before ++ '&' :: after) :
    ∃ r ∈ textReferences, r.1 <+: '&' :: after := by
  induction cs generalizing before with
  | nil => simp at h
  | cons c cs ih =>
    rw [List.flatMap_cons] at h
    rcases List.append_eq_append_iff.1 h with ⟨middle, -, hrest⟩ | ⟨middle, hchar, hrest⟩
    · exact ih hrest
    · cases middle with
      | nil => exact ih (show cs.flatMap escapeTextChar = [] ++ '&' :: after from hrest.symm)
      | cons m middle =>
        obtain ⟨rfl, rfl⟩ := List.cons.inj hrest
        obtain ⟨-, r, hr, hform⟩ := append_eq_escapeTextChar hchar
        exact ⟨r, hr, hform ▸ ⟨_, rfl⟩⟩

end Svelte

namespace Assembly

open Component Expression Render Svelte

/-! ### Literals between braces -/

/-- A child between braces is a string literal, or a template without substitutions: between its
quotation marks stands `contents`, and no character of it is escaped. -/
structure HoldsLiteral (src : Source) (child literal : Node) (contents : String) : Prop where
  isContent : isContent child = true
  isBraced : child.kind = "jsx_expression"
  inner : (innerExpression? child).bind Node.bare? = some literal
  isString : isPlainString literal = true
  isPlain : literal.hasMarkup = false
  quoted : ∃ mark mark', (src.text literal).toList = mark :: (contents.toList ++ [mark'])
  unescaped : '\\' ∉ contents.toList

namespace HoldsLiteral

variable {src : Source} {child literal : Node} {contents : String}

/-- A literal is a string or a template. -/
theorem kind_literal (h : HoldsLiteral src child literal contents) :
    literal.kind = "string" ∨ literal.kind = "template_string" := by
  have := h.isString
  simp only [isPlainString, Bool.or_eq_true, Bool.and_eq_true, beq_iff_eq] at this
  exact this.imp_right And.left

/-- It is read as its contents. -/
theorem stringLiteral (h : HoldsLiteral src child literal contents) :
    stringLiteral? src literal = some contents := by
  have bare : literal.withoutParens = literal := by
    unfold Node.withoutParens
    split
    · rw [if_neg (by rcases h.kind_literal with h | h <;> simp [h])]
    · rfl
  obtain ⟨mark, mark', hquoted⟩ := h.quoted
  have inside : Text.withoutEnds (src.text literal) = contents := by
    rw [Text.withoutEnds, hquoted]
    simp
  unfold stringLiteral?
  dsimp only
  rw [bare, if_pos h.isString, inside, if_neg (by simpa using h.unescaped)]

/-- A literal is built as an expression of its own. -/
theorem buildBare_eq (h : HoldsLiteral src child literal contents) (names : Names) (nested : Bool) :
    buildBare src names nested literal = pure (some (.expression literal)) := by
  have hempty : isEmptyLiteral src literal = false := by
    rcases h.kind_literal with h | h <;> simp [isEmptyLiteral, emptyLiterals, h]
  have hjsx : literal.isJsx = false := by
    rcases h.kind_literal with h | h <;> simp [Node.isJsx, Node.jsxKinds, h]
  have hkinds : (literal.kind == "binary_expression") = false ∧
      (literal.kind == "ternary_expression") = false ∧
      (literal.kind == "call_expression") = false ∧ (literal.kind == "identifier") = false ∧
      (literal.kind == "member_expression") = false := by
    rcases h.kind_literal with h | h <;> simp [h]
  obtain ⟨hbinary, hternary, hcall, hname, hmember⟩ := hkinds
  have hlist : mappedList? src literal = none := by simp [mappedList?, hcall]
  have hslot : slotUse src names literal = pure none := by
    simp [slotUse, calleeAndArguments, namedSlot?, hcall, hname, hmember]
  rw [buildBare]
  simp only [hempty, hjsx, hbinary, hternary, hlist, hslot, h.isPlain, Bool.false_and, pure_bind,
    Bool.false_eq_true, if_false]

/-- The literal is built as a child. -/
theorem buildChildren_eq (h : HoldsLiteral src child literal contents) (names : Names)
    (nested : Bool) (others : List Node) :
    buildChildren src names nested (child :: others) =
      (do return .expression literal :: (← buildChildren src names nested others)) := by
  obtain ⟨e, he, hliteral⟩ := Option.bind_eq_some_iff.1 h.inner
  -- A spread is not freed of anything, so it cannot hold a literal.
  have hspread : (e.kind == "spread_element") = false := by
    rw [beq_eq_false_iff_ne]
    intro hspread
    have bare : e.bare? = some e := by
      unfold Node.bare?
      split <;> simp [hspread, Node.isAssertion]
    obtain rfl : e = literal := Option.some.inj (bare.symm.trans hliteral)
    rcases h.kind_literal with h | h <;> simp [h] at hspread
  have built : buildExpression src names true e = pure (some (.expression literal)) := by
    rw [buildExpression]
    split
    case h_1 hnone => rw [hliteral] at hnone; cases hnone
    case h_2 m hm =>
      obtain rfl : literal = m := Option.some.inj (hliteral.symm.trans hm)
      exact h.buildBare_eq names true
  have child_eq : buildChild src names nested child = pure (some (.expression literal)) := by
    simp only [buildChild, h.isContent, h.isBraced, he, hspread, built]
    rfl
  rw [buildChildren_cons, child_eq, pure_bind]
  rfl

/-- It is shown as escaped text. -/
theorem nodeMarkup_eq (h : HoldsLiteral src child literal contents) (model : Model) :
    nodeMarkup src model (.expression literal) = pure [.text (escapeText contents)] := by
  rw [nodeMarkup, orPlaceholder, valueMarkup, h.stringLiteral]
  rfl

end HoldsLiteral

/-- **Literals as text.** Escaped text holds none of the characters that open a tag or stand for
braces, every ampersand in it is the first character of a reference, and a reader who takes the
references for their characters, in one pass from left to right, reads the text that was escaped; it
is the text after four replacements, the ampersand first. So different texts are escaped to
different texts, and a literal between braces, none of whose characters is escaped, becomes a text
that is read as the contents of the literal. -/
theorem literal_text_survives (contents : String) :
    (∀ c ∈ (escapeText contents).toList, IsShown c) ∧
    (∀ before after, (escapeText contents).toList = before ++ '&' :: after →
      ∃ r ∈ textReferences, r.1 <+: '&' :: after) ∧
    readText (escapeText contents) = contents ∧
    (escapeText contents).toList = replaceInTurn contents.toList ∧
    Function.Injective escapeText ∧
    ∀ src child literal, HoldsLiteral src child literal contents →
      (∀ names nested others, buildChildren src names nested (child :: others) =
        (do return .expression literal :: (← buildChildren src names nested others))) ∧
      ∀ model, ∃ text, nodeMarkup src model (.expression literal) = pure [.text text] ∧
        readText text = contents := by
  refine ⟨fun c hc => ?_, fun before after h => ?_, readText_escapeText contents, ?_,
    Function.LeftInverse.injective readText_escapeText, fun src child literal h => ⟨?_, ?_⟩⟩
  · rw [escapeText, String.toList_ofList] at hc
    obtain ⟨d, -, hd⟩ := List.mem_flatMap.1 hc
    exact isShown_of_mem_escapeTextChar hd
  · rw [escapeText, String.toList_ofList] at h
    exact exists_reference h
  · rw [escapeText, String.toList_ofList, flatMap_escapeTextChar]
  · exact h.buildChildren_eq
  · exact fun model => ⟨_, h.nodeMarkup_eq model, readText_escapeText contents⟩

section Sample

/-- The literal in `<p>`, with text that looks like a reference. -/
def entityLiteral : Node := Node.plain "string" 4 16 []

/-- The literal between braces. -/
def entityChild : Node := Node.plain "jsx_expression" 3 17 [entityLiteral]

/-- The source of the element. -/
def entitySource : Source := .ofText "App.jsx" "<p>\x7b'a &lt; \x7bb\x7d'\x7d</p>"

/-- What looks like a reference in a literal is shown as it stands. -/
theorem literal_text_survives_of_entity :
    HoldsLiteral entitySource entityChild entityLiteral "a &lt; \x7bb\x7d" ∧
    escapeText "a &lt; \x7bb\x7d" = "a &amp;lt; &#123;b&#125;" ∧
    ∀ model, ∃ text,
      nodeMarkup entitySource model (.expression entityLiteral) = pure [.text text] ∧
        readText text = "a &lt; \x7bb\x7d" := by
  have holds : HoldsLiteral entitySource entityChild entityLiteral "a &lt; \x7bb\x7d" :=
    { isContent := by decide +kernel
      isBraced := rfl
      inner := by decide +kernel
      isString := by decide +kernel
      isPlain := by decide +kernel
      quoted := ⟨'\'', '\'', by decide +kernel⟩
      unescaped := by decide +kernel }
  obtain ⟨-, -, -, -, -, literals⟩ := literal_text_survives "a &lt; \x7bb\x7d"
  exact ⟨holds, by decide +kernel, (literals _ _ _ holds).2⟩

end Sample

end Assembly

end Sveltify
