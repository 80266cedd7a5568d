import Sveltify.Refusal
import Sveltify.Table

namespace Sveltify

/-!
# Journals

A run keeps a journal of what its stages did, for whoever watches it.

* `JournalEntry`: one entry, with facts of any type `α`;
* `stageEntry`: the entry for an event of a stage.
-/

/-- An entry of a journal. -/
structure JournalEntry (α : Type) where
  name : String
  message : String
  facts : Option (Table α) := none
deriving Repr, DecidableEq

/-- A name that is there and not empty, else the one for nameless sources. -/
def shownName (sourceName : Option String) : String := (nonEmpty? sourceName).getD Place.anonymous

/-- The facts about an event: the stage, the source, and what is known beyond that. -/
def stageFacts {α : Type} (text : String → α) (stage : String) (sourceName : Option String)
    (extras : List (String × α)) : Table α :=
  let common := ((∅ : Table α).insert "stage" (text stage)).insert "source"
    (text (shownName sourceName))
  extras.foldl (fun t e => t.insert e.1 e.2) common

/-- The entry for an event of a stage. `text` says how a text is a fact. -/
def stageEntry {α : Type} (text : String → α) (stage event : String) (sourceName : Option String)
    (extras : List (String × α)) : JournalEntry α where
  name := s!"{stage}.{event}"
  message := s!"{stage} {event}"
  facts := some (stageFacts text stage sourceName extras)

end Sveltify
