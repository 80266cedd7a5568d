namespace Sveltify.Text

/-!
# Runs of code points

A character property of the Unicode standard is kept as a short list of arithmetic runs.

* `Run`: the code points `first, first + step, …, last`;
* `gapless`: the runs of all code points between two ends;
* `covered`: membership of a character in a list of runs.
-/

/-- The code points `first, first + step, …` up to `last`. -/
structure Run where
  /-- The least code point of the run. -/
  first : Nat
  /-- The greatest code point of the run. -/
  last : Nat
  /-- The distance between neighbours. -/
  step : Nat
deriving Repr, DecidableEq

/-- Runs without gaps, each given by its least and its greatest code point. -/
def gapless (ends : List (Nat × Nat)) : List Run :=
  ends.map fun e => ⟨e.1, e.2, 1⟩

/-- Does the run hold the code point `n`? -/
def Run.holds (r : Run) (n : Nat) : Bool :=
  decide (r.first ≤ n) && decide (n ≤ r.last) && (n - r.first) % r.step == 0

/-- Does one of the runs hold the character? -/
def covered (runs : List Run) (c : Char) : Bool :=
  runs.any (·.holds c.toNat)

@[simp] theorem covered_nil (c : Char) : covered [] c = false := rfl

@[simp] theorem covered_cons (r : Run) (rs : List Run) (c : Char) :
    covered (r :: rs) c = (r.holds c.toNat || covered rs c) := rfl

end Sveltify.Text
