namespace Sveltify.Text

/-!
# Lines

* `splitOn`: cut a character list at every occurrence of one character;
* `lines`: the lines of a text, cut at line feeds only;
* `unlines`: lines joined by line feeds, the inverse of `lines`;
* `firstLine`: everything before the first line boundary of any kind;
* `padLines`: lines moved to the right, empty ones left empty;
* `enclose`: lines with a beginning and an end around all of them.
-/

/-- The stretches between the occurrences of `sep`; there is always at least one. -/
def splitOn (sep : Char) : List Char → List (List Char)
  | [] => [[]]
  | c :: cs =>
    if c = sep then [] :: splitOn sep cs
    else
      match splitOn sep cs with
      | [] => [[c]]
      | part :: parts => (c :: part) :: parts

@[simp] theorem splitOn_nil (sep : Char) : splitOn sep [] = [[]] := rfl

/-- Cutting never yields an empty list of parts. -/
theorem splitOn_ne_nil (sep : Char) (cs : List Char) : splitOn sep cs ≠ [] := by
  induction cs with
  | nil => simp
  | cons c cs _ =>
    rw [splitOn]
    split
    · simp
    · split <;> simp

/-- The parts of a text between the occurrences of `sep`. -/
def parts (sep : Char) (s : String) : List String :=
  (splitOn sep s.toList).map String.ofList

/-- The lines of a text; a final line feed is followed by an empty line. -/
def lines (s : String) : List String := parts '\n' s

/-- The lines joined by line feeds. -/
def unlines (ls : List String) : String := "\n".intercalate ls

/-- The characters at which a text breaks into lines in the widest sense: line feed, carriage
return, vertical tab, form feed, the separators U+001C to U+001E, next line, and the line and
paragraph separators. -/
def isLineBoundary (c : Char) : Bool :=
  [0x0A, 0x0B, 0x0C, 0x0D, 0x1C, 0x1D, 0x1E, 0x85, 0x2028, 0x2029].contains c.toNat

/-- The text before its first line boundary. -/
def firstLine (s : String) : String :=
  String.ofList (s.toList.takeWhile fun c => !isLineBoundary c)

/-- The line after `pad`; an empty line stays empty. -/
def padLine (pad line : String) : String := if line.isEmpty then "" else pad ++ line

/-- Every line after `pad`. -/
def padLines (pad : String) (ls : List String) : List String := ls.map (padLine pad)

/-- The lines with `before` put in front of the first one and `after` behind the last one. -/
def enclose (before after : String) : List String → List String
  | [] => []
  | [line] => [before ++ line ++ after]
  | first :: rest => (before ++ first) :: rest.dropLast ++ (rest.getLast?.map (· ++ after)).toList

end Sveltify.Text
