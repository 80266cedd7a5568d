import Sveltify.Text.LowercaseRuns

namespace Sveltify.Text

/-!
# Lowercasing

The full lowercase mapping of the Unicode standard.

* `lowercaseChar`: the lowercase form of a character on its own;
* `isFinalSigma`: is a capital sigma at this place the last letter of its word?
* `lowercase`: the lowercase form of a text, where a capital sigma at the end of a word becomes
  the final form `ς` and the dotted capital `İ` becomes two characters.
-/

/-- The lowercase form of a character that has one of a single code point, else the character. -/
def lowercaseChar (c : Char) : Char :=
  let n := c.toNat
  if n < 0x80 then
    if 0x41 ≤ n ∧ n ≤ 0x5A then Char.ofNat (n + 0x20) else c
  else
    match lowercaseRuns.find? fun r => Run.holds ⟨r.first, r.last, r.step⟩ n with
    | some r => Char.ofNat (r.target + (n - r.first))
    | none => c

/-- Is the nearest character that is not case-ignorable a cased one? -/
def meetsCased (cs : List Char) : Bool :=
  (cs.dropWhile (covered caseIgnorableRuns)).head?.any (covered casedRuns)

/-- A sigma ends its word if a cased letter precedes it and none follows, case-ignorable
characters between them not counted. `before` is read backwards. -/
def isFinalSigma (before after : List Char) : Bool :=
  meetsCased before && !meetsCased after

/-- Lowercase the second list; the first holds the characters before it, nearest first. -/
def lowercaseFrom : List Char → List Char → List Char
  | _, [] => []
  | before, c :: cs =>
    let low :=
      if c = 'Σ' then (if isFinalSigma before cs then ['ς'] else ['σ'])
      else if c = 'İ' then ['i', '̇']
      else [lowercaseChar c]
    low ++ lowercaseFrom (c :: before) cs

/-- The lowercase form of a text. -/
def lowercase (s : String) : String := String.ofList (lowercaseFrom [] s.toList)

end Sveltify.Text
