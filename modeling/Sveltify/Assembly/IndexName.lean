namespace Sveltify.Assembly

/-!
# Names for list indices

* `freshIndex`: a name for the index of a list that is not yet taken.
-/

/-- The names that are tried first. -/
def usualIndices : List String := ["i", "index", "idx"]

/-- The numbered names, from one on. -/
def numberedIndex (k : Nat) : String := s!"i{k + 1}"

/-- The first usual name that is not taken, else the numbered name with the least number. Among one
more numbered names than there are names taken, one is free. -/
def freshIndex (taken : List String) : String :=
  match usualIndices.find? fun name => !taken.contains name with
  | some name => name
  | none =>
    match (List.range (taken.length + 1)).find? fun k => !taken.contains (numberedIndex k) with
    | some k => numberedIndex k
    | none => numberedIndex taken.length

end Sveltify.Assembly
