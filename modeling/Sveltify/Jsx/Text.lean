namespace Sveltify.Jsx

/-!
# Text between JSX tags

* `textLines`: the lines of a text child, ended by CR LF, LF or CR;
* `trimLine`: what is left of a line, by its place among the lines;
* `cleanText`: the text that is shown, with the remaining lines joined by single spaces.
-/

/-- The lines of a text child. -/
def textLines : List Char → List (List Char)
  | [] => [[]]
  | '\r' :: '\n' :: cs => [] :: textLines cs
  | c :: cs =>
    if c = '\n' ∨ c = '\r' then [] :: textLines cs
    else
      match textLines cs with
      | [] => [[c]]
      | l :: ls => (c :: l) :: ls

/-- A tab counts as a space. -/
def untab (c : Char) : Char := if c = '\t' then ' ' else c

/-- A line without its leading spaces unless it is the first, and without its trailing spaces
unless it is the last. -/
def trimLine (isFirst isLast : Bool) (l : List Char) : List Char :=
  let l := l.map untab
  let l := if isFirst then l else l.dropWhile (· == ' ')
  if isLast then l else (l.reverse.dropWhile (· == ' ')).reverse

/-- Trim lines that follow the first one. -/
def trimRest : List (List Char) → List (List Char)
  | [] => []
  | [l] => [trimLine false true l]
  | l :: ls => trimLine false false l :: trimRest ls

/-- Trim every line by its place. -/
def trimLines : List (List Char) → List (List Char)
  | [] => []
  | [l] => [trimLine true true l]
  | l :: ls => trimLine true false l :: trimRest ls

/-- The text shown for a text child. -/
def cleanText (raw : String) : String :=
  let kept := (trimLines (textLines raw.toList)).filter fun l => !l.isEmpty
  " ".intercalate (kept.map String.ofList)

end Sveltify.Jsx
