namespace Sveltify.Text.Utf8

/-!
# Reading UTF-8, with a replacement for what is not

A machine that reads one octet at a time. Octets that cannot be part of a character are replaced
by U+FFFD, one for each longest stretch that starts a character and is then broken off.

* `encode`: the octets of a text;
* `Pending`: what is still owed after the octets of an unfinished character;
* `step`: one octet, giving the characters finished by it and the next state;
* `decode`: the characters of a sequence of octets.
-/

/-- The octets of a character list. -/
def encode (cs : List Char) : List UInt8 := cs.flatMap String.utf8EncodeChar

/-- An unfinished character: how many octets are owed, between which bounds the next one has to
lie, and the bits read so far. -/
structure Pending where
  owed : Nat
  low : Nat
  high : Nat
  bits : Nat
deriving Repr, DecidableEq

/-- What an octet at the start of a character gives. -/
inductive Lead where
  /-- A character of one octet. -/
  | done (c : Char)
  /-- The first octet of a longer character. -/
  | more (p : Pending)
  /-- An octet that starts no character. -/
  | invalid
deriving Repr, DecidableEq

/-- The replacement character U+FFFD. -/
def replacement : Char := '�'

/-- Classify an octet that stands at the start of a character. The bounds on the second octet
exclude overlong forms, surrogates and code points beyond U+10FFFF. -/
def lead (b : Nat) : Lead :=
  if b < 0x80 then .done (Char.ofNat b)
  else if b < 0xC2 then .invalid
  else if b < 0xE0 then .more ⟨1, 0x80, 0xBF, b - 0xC0⟩
  else if b = 0xE0 then .more ⟨2, 0xA0, 0xBF, 0⟩
  else if b = 0xED then .more ⟨2, 0x80, 0x9F, 0xD⟩
  else if b < 0xF0 then .more ⟨2, 0x80, 0xBF, b - 0xE0⟩
  else if b = 0xF0 then .more ⟨3, 0x90, 0xBF, 0⟩
  else if b < 0xF4 then .more ⟨3, 0x80, 0xBF, b - 0xF0⟩
  else if b = 0xF4 then .more ⟨3, 0x80, 0x8F, 4⟩
  else .invalid

/-- One octet between characters. -/
def start (b : Nat) : List Char × Option Pending :=
  match lead b with
  | .done c => ([c], none)
  | .more p => ([], some p)
  | .invalid => ([replacement], none)

/-- One octet: the characters it finishes and the state after it. An octet that the unfinished
character cannot hold ends it with a replacement and is read again from between characters. -/
def step : Option Pending → Nat → List Char × Option Pending
  | none, b => start b
  | some p, b =>
    if p.low ≤ b ∧ b ≤ p.high then
      let bits := p.bits * 64 + (b - 0x80)
      if p.owed ≤ 1 then ([Char.ofNat bits], none)
      else ([], some ⟨p.owed - 1, 0x80, 0xBF, bits⟩)
    else
      let (cs, q) := start b
      (replacement :: cs, q)

/-- The characters read from a state; an unfinished character at the end is replaced. -/
def decodeFrom : Option Pending → List UInt8 → List Char
  | none, [] => []
  | some _, [] => [replacement]
  | q, b :: bs =>
    let (cs, q') := step q b.toNat
    cs ++ decodeFrom q' bs

/-- The characters of a sequence of octets. -/
def decode (bs : List UInt8) : List Char := decodeFrom none bs

@[simp] theorem decode_nil : decode [] = [] := rfl

end Sveltify.Text.Utf8
