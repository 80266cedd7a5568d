namespace Sveltify.Text

/-!
# Paths

* `splitExtension`: a path cut before the extension of its file name.
-/

/-- The part of a list up to the last occurrence of `c`, and the part after it. -/
def splitAfterLast (c : Char) (cs : List Char) : List Char × List Char :=
  let last := (cs.reverse.takeWhile (· != c)).reverse
  (cs.take (cs.length - last.length), last)

/-- Cut a path before the extension of its file name: the last dot of the name and what follows,
where dots at the start of the name do not count. Without extension the second part is empty. -/
def splitExtension (path : String) : String × String :=
  let (folder, name) := splitAfterLast '/' path.toList
  let dots := name.takeWhile (· == '.')
  let rest := name.dropWhile (· == '.')
  if rest.contains '.' then
    let (stem, extension) := splitAfterLast '.' rest
    (String.ofList (folder ++ dots ++ stem.dropLast), String.ofList ('.' :: extension))
  else (path, "")

end Sveltify.Text
