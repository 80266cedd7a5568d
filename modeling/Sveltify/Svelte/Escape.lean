namespace Sveltify.Svelte

/-!
# Escaping

* `escapeAttribute`: a text for an attribute between double quotes, where entities keep their
  meaning;
* `escapeText`: a text shown as it is;
* `escapeComment`: a text that cannot end the comment around it;
* `quoteKey`: a text as a string literal of the script.
-/

/-- One character of an attribute value. -/
def escapeAttributeChar (c : Char) : List Char :=
  if c = '"' then "&quot;".toList
  else if c = '\x7b' then "&#123;".toList
  else if c = '\x7d' then "&#125;".toList
  else [c]

/-- A text inside a double-quoted attribute. Entities stay as written, since the reader of the
markup decodes them just as the reader of the source did. -/
def escapeAttribute (s : String) : String :=
  String.ofList (s.toList.flatMap escapeAttributeChar)

/-- One character of a text. -/
def escapeTextChar (c : Char) : List Char :=
  if c = '&' then "&amp;".toList
  else if c = '<' then "&lt;".toList
  else if c = '\x7b' then "&#123;".toList
  else if c = '\x7d' then "&#125;".toList
  else [c]

/-- A text that is shown character by character. -/
def escapeText (s : String) : String := String.ofList (s.toList.flatMap escapeTextChar)

/-- The characters of a comment; the mark that ends comments is broken up. -/
def escapeCommentChars : List Char → List Char
  | '-' :: '-' :: '>' :: cs => "--&gt;".toList ++ escapeCommentChars cs
  | c :: cs => c :: escapeCommentChars cs
  | [] => []

/-- A text inside a comment. -/
def escapeComment (s : String) : String := String.ofList (escapeCommentChars s.toList)

/-- One character of a string literal. -/
def quoteKeyChar (c : Char) : List Char := if c = '\\' ∨ c = '\'' then ['\\', c] else [c]

/-- A text as a string literal in single quotes. -/
def quoteKey (s : String) : String :=
  String.ofList ('\'' :: s.toList.flatMap quoteKeyChar ++ ['\''])

end Sveltify.Svelte
