import Sveltify.Text.Utf8

namespace Sveltify

open Text

/-!
# Source texts and positions

A source is a named sequence of UTF-8 octets; offsets into it count octets, while the lines and
columns shown to a reader count from one, columns in characters.

* `Source.slice`: the text between two offsets;
* `Source.lineStarts`: the table of the offsets at which lines start;
* `Source.bisectRight`: a place in a sorted table, found by halving;
* `Source.position`: the line and column of an offset;
* `Location`: where a stretch of the source starts and ends.
-/

/-- A named text, kept as its UTF-8 octets. -/
structure Source where
  /-- The name shown in messages. -/
  name : String
  /-- The octets of the text. -/
  bytes : List UInt8
deriving Repr, DecidableEq

/-- A line and a column, both counted from one. -/
structure Position where
  line : Nat
  column : Nat
deriving Repr, DecidableEq

namespace Source

/-- The octet that ends a line. -/
def lineFeed : UInt8 := 0x0A

/-- The source of a text. -/
def ofText (name text : String) : Source := ⟨name, Utf8.encode text.toList⟩

/-- The octets from `start` up to `stop`. -/
def octets (src : Source) (start stop : Nat) : List UInt8 :=
  (src.bytes.take stop).drop start

/-- The characters from `start` up to `stop`; octets cut out of a character are replaced. -/
def sliceChars (src : Source) (start stop : Nat) : List Char :=
  Utf8.decode (src.octets start stop)

/-- The text from `start` up to `stop`. -/
def slice (src : Source) (start stop : Nat) : String :=
  String.ofList (src.sliceChars start stop)

/-- The part of a list of octets after its last line feed. -/
def lastLine (bs : List UInt8) : List UInt8 :=
  (bs.reverse.takeWhile (· != lineFeed)).reverse

/-! ### Positions -/

/-- The offsets at which the lines start: the front of the text, and the octet behind each line
feed. -/
def lineStarts (src : Source) : List Nat :=
  0 :: (src.bytes.zipIdx.filter (·.1 == lineFeed)).map (·.2 + 1)

/-- The place behind all entries up to `x` of a sorted list, looked for from `lo` up to `hi` by
halving. -/
def bisectRight (entries : List Nat) (x lo hi : Nat) : Nat :=
  if lo < hi then
    let mid := (lo + hi) / 2
    if x < entries.getD mid 0 then bisectRight entries x lo mid
    else bisectRight entries x (mid + 1) hi
  else lo
termination_by hi - lo

/-- The position of an offset: its row in the table of line starts, and the characters between the
start of that line and the offset. -/
def position (src : Source) (offset : Nat) : Position :=
  let starts := src.lineStarts
  -- The first line starts at zero, so some entry of the table is not behind the offset.
  let row := bisectRight starts offset 0 starts.length - 1
  let lineStart := starts.getD row 0
  { line := row + 1
    column := (src.sliceChars lineStart offset).length + 1 }

end Source

/-- Where a stretch of a source starts, and the position just after it. -/
structure Location where
  start : Position
  stop : Position
deriving Repr, DecidableEq

/-- The location of the octets from `start` up to `stop`. -/
def Source.location (src : Source) (start stop : Nat) : Location :=
  ⟨src.position start, src.position stop⟩

namespace Location

/-- Does the stretch end on a later line than it starts? -/
def spansLines (l : Location) : Bool := decide (l.start.line < l.stop.line)

/-- The lines that the stretch touches after its first. -/
def laterLines (l : Location) : List Nat :=
  List.range' (l.start.line + 1) (l.stop.line - l.start.line)

/-- The location in words, in the source called `name`. -/
def text (name : String) (l : Location) : String :=
  let start := s!"{name}:{l.start.line}:{l.start.column}"
  if l.spansLines then s!"{start}-{l.stop.line}:{l.stop.column}" else start

end Location

end Sveltify
