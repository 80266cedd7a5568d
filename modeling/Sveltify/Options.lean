import Sveltify.Refusal
import Sveltify.Text.Blank
import Sveltify.Text.Letter

namespace Sveltify

open Text

/-!
# Options of a conversion

Options arrive as named values of any kind. Each declared option accepts a few spellings of its
values; everything else is an issue, and all issues are reported together.

* `Options`: the checked options;
* `OptionValue`: a value as it arrives;
* `OptionIssue`: what can be wrong with one;
* `Options.check`: the options, or every issue with the key it was given under.
-/

/-- Checked options. -/
structure Options where
  /-- Is the source TypeScript, and should type annotations be written? -/
  typescript : Bool := false
  /-- Do warnings count as errors, and does any error withhold the output? -/
  strictMode : Bool := false
  /-- Spaces per level of indentation. -/
  indentWidth : Nat := 2
  /-- The name of the source in messages. -/
  sourceName : String := Place.anonymous
  /-- A name that replaces the component's own. -/
  componentName : Option String := none
deriving Repr, DecidableEq

/-- One level of indentation. -/
def Options.indent (o : Options) : String := String.ofList (List.replicate o.indentWidth ' ')

/-- The value of an option as it arrives. -/
inductive OptionValue where
  | null
  | bool (b : Bool)
  | integer (n : Int)
  /-- The number `mantissa / 10 ^ scale`, written with a fraction or an exponent. -/
  | decimal (mantissa : Int) (scale : Nat)
  | text (s : String)
  /-- A list or a record. -/
  | compound
deriving Repr, DecidableEq

/-- What can be wrong with the value of an option. -/
inductive OptionIssue where
  | boolParsing
  | boolType
  | intParsing
  | intParsingSize
  | intFromFloat
  | intType
  | tooSmall
  | tooLarge
  | stringType
  | badValue
  | unknownKey
deriving Repr, DecidableEq

/-- The word for an issue. -/
def OptionIssue.text : OptionIssue → String
  | .boolParsing => "bool_parsing"
  | .boolType => "bool_type"
  | .intParsing => "int_parsing"
  | .intParsingSize => "int_parsing_size"
  | .intFromFloat => "int_from_float"
  | .intType => "int_type"
  | .tooSmall => "greater_than_equal"
  | .tooLarge => "less_than_equal"
  | .stringType => "string_type"
  | .badValue => "value_error"
  | .unknownKey => "extra_forbidden"

/-! ### Numbers -/

/-- The whole number that a decimal number equals, if there is one. -/
def wholeDecimal? (mantissa : Int) (scale : Nat) : Option Int :=
  let unit := Nat.pow 10 scale
  if mantissa % unit = 0 then some (mantissa / unit) else none

/-- Does the number fit a signed word of 64 bits? -/
def fitsWord (n : Int) : Bool := decide (-0x8000000000000000 ≤ n) && decide (n < 0x8000000000000000)

/-- Whitespace around a number written as text. -/
def isPadding (c : Char) : Bool :=
  isBlank c && !(decide (0x1C ≤ c.toNat) && decide (c.toNat ≤ 0x1F))

/-- The value of a run of ASCII digits. -/
def digitsValue (cs : List Char) : Nat := cs.foldl (fun n c => n * 10 + (c.toNat - 0x30)) 0

/-- Drop the zeros in front of a number, and underscores among them, but keep a last zero. A digit
comes first, and after zeros a minus sign may follow too. -/
def dropLeadingZeros? : List Char → Option (List Char)
  | '0' :: cs =>
    match cs.dropWhile fun c => c == '0' || c == '_' with
    | [] => some [cs.getLastD '0']
    | '.' :: rest =>
      let zeros := '0' :: cs.takeWhile fun c => c == '0' || c == '_'
      some (zeros.getLastD '0' :: '.' :: rest)
    | c :: rest => if isAsciiDigit c || c == '-' then some (c :: rest) else none
  | c :: cs => if isAsciiDigit c then some (c :: cs) else none
  | [] => none

/-- Drop a fraction of one or more zeros. -/
def dropZeroFraction (cs : List Char) : List Char :=
  match cs.dropWhile (· != '.') with
  | '.' :: z :: zeros => if (z :: zeros).all (· == '0') then cs.takeWhile (· != '.') else cs
  | _ => cs

/-- Do two underscores stand side by side? -/
def hasDoubleUnderscore : List Char → Bool
  | '_' :: '_' :: _ => true
  | _ :: cs => hasDoubleUnderscore cs
  | [] => false

/-- Drop the underscores between digits; at an end or doubled they stay, and are then no digits. -/
def dropUnderscores (cs : List Char) : List Char :=
  if cs.head? == some '_' || cs.getLast? == some '_' || hasDoubleUnderscore cs then cs
  else cs.filter (· != '_')

/-- The most characters that the sign and the digits of a number may have. -/
def numeralLimit : Nat := 4300

/-- Digits after a sign of the given length. Only a zero that stands alone may come first. -/
def readDigits (signLength : Nat) (cs : List Char) : Except OptionIssue Nat :=
  let ds := cs.takeWhile isAsciiDigit
  if ds.head? == some '0' && 1 < ds.length then .error .intParsing
  else if numeralLimit < signLength + ds.length then .error .intParsingSize
  else if ds.isEmpty || ds.length < cs.length then .error .intParsing
  else .ok (digitsValue ds)

/-- Digits, perhaps after a minus sign. -/
def readSigned : List Char → Except OptionIssue Int
  | '-' :: cs => (readDigits 1 cs).map fun n => -(n : Int)
  | cs => (readDigits 0 cs).map fun n => (n : Int)

/-- A number after its sign, without what may be left out: zeros in front, a fraction of zeros, and
underscores between its digits. -/
def plainNumeral? (cs : List Char) : Option (List Char) :=
  (dropLeadingZeros? cs).map fun cs => dropUnderscores (dropZeroFraction cs)

/-- The characters of a number in plain form, a minus sign kept and a plus sign dropped. -/
def plainSigned? : List Char → Option (List Char)
  | '-' :: cs => (plainNumeral? cs).map ('-' :: ·)
  | '+' :: cs => plainNumeral? cs
  | cs => plainNumeral? cs

/-- A whole number written as text: padded, signed, with zeros in front, a fraction of zeros, or
underscores between its digits. -/
def integerOfText (s : String) : Except OptionIssue Int :=
  match plainSigned? (dropEndWhile isPadding (s.toList.dropWhile isPadding)) with
  | none => .error .intParsing
  | some cs => readSigned cs

/-! ### Reading one option -/

/-- Is the text one of the words, whatever the case of its ASCII letters? -/
def isOneOf (words : List String) (s : String) : Bool :=
  words.contains (String.ofList (s.toList.map Char.toLower))

/-- A switch: a truth value, zero or one, or one of the usual words. -/
def OptionValue.switch : OptionValue → Except OptionIssue Bool
  | .bool b => .ok b
  | .integer n =>
    if n = 0 then .ok false
    else if n = 1 then .ok true
    else if fitsWord n then .error .boolParsing
    else .error .boolType
  | .decimal m k =>
    match wholeDecimal? m k with
    | some 0 => .ok false
    | some 1 => .ok true
    | some n => .error (if fitsWord n then .boolParsing else .boolType)
    | none => .error .boolType
  | .text s =>
    if isOneOf ["0", "off", "f", "false", "n", "no"] s then .ok false
    else if isOneOf ["1", "on", "t", "true", "y", "yes"] s then .ok true
    else .error .boolParsing
  | .null | .compound => .error .boolType

/-- A whole number. -/
def OptionValue.whole : OptionValue → Except OptionIssue Int
  | .bool b => .ok (if b then 1 else 0)
  | .integer n => .ok n
  | .decimal m k =>
    match wholeDecimal? m k with
    | some n => if fitsWord n then .ok n else .error .intParsingSize
    | none => .error .intFromFloat
  | .text s => integerOfText s
  | .null | .compound => .error .intType

/-- A width of indentation: one to eight. -/
def OptionValue.width (v : OptionValue) : Except OptionIssue Nat :=
  match v.whole with
  | .error e => .error e
  | .ok n =>
    if n < 1 then .error .tooSmall
    else if 8 < n then .error .tooLarge
    else .ok n.toNat

/-- A text. -/
def OptionValue.string : OptionValue → Except OptionIssue String
  | .text s => .ok s
  | _ => .error .stringType

/-- Is the text fit to name a component: an uppercase letter, then letters, numbers and
underscores? -/
def isComponentName (s : String) : Bool :=
  match s.toList with
  | [] => false
  | c :: cs => isUpper c && ((c :: cs).filter (· != '_')).all isAlnum

/-- A name for the component, or none. -/
def OptionValue.name : OptionValue → Except OptionIssue (Option String)
  | .null => .ok none
  | .text s => if isComponentName s then .ok (some s) else .error .badValue
  | _ => .error .stringType

/-! ### Reading all options -/

/-- The key that is used for an option: its short spelling if given, else its long one. -/
def usedKey? (given : List (String × OptionValue)) (keys : List String) :
    Option (String × OptionValue) :=
  keys.findSome? fun k => (given.lookup k).map fun v => (k, v)

/-- Read one option under the keys it may be given by; an absent option keeps its default. -/
def readOption {α : Type} (given : List (String × OptionValue)) (keys : List String)
    (default : α) (read : OptionValue → Except OptionIssue α) :
    List String × Except (String × OptionIssue) α :=
  match usedKey? given keys with
  | none => ([], .ok default)
  | some (k, v) =>
    match read v with
    | .ok a => ([k], .ok a)
    | .error e => ([k], .error (k, e))

/-- The issue of a reading, if it failed. -/
def issueOf {α : Type} : Except (String × OptionIssue) α → List (String × OptionIssue)
  | .ok _ => []
  | .error e => [e]

/-- Check the given options. The issues come in the order of the declared options, then the keys
that belong to no option in the order given. -/
def Options.check (given : List (String × OptionValue)) :
    Except (List (String × OptionIssue)) Options :=
  let base : Options := {}
  let (k₁, typescript) := readOption given ["typescript"] base.typescript OptionValue.switch
  let (k₂, strictMode) :=
    readOption given ["strictMode", "strict_mode"] base.strictMode OptionValue.switch
  let (k₃, indentWidth) :=
    readOption given ["indentWidth", "indent_width"] base.indentWidth OptionValue.width
  let (k₄, sourceName) :=
    readOption given ["sourceName", "source_name"] base.sourceName OptionValue.string
  let (k₅, componentName) :=
    readOption given ["componentName", "component_name"] base.componentName OptionValue.name
  let used := k₁ ++ k₂ ++ k₃ ++ k₄ ++ k₅
  let unknown := (given.filter fun e => !used.contains e.1).map fun e => (e.1, .unknownKey)
  let issues := issueOf typescript ++ issueOf strictMode ++ issueOf indentWidth
    ++ issueOf sourceName ++ issueOf componentName ++ unknown
  match typescript, strictMode, indentWidth, sourceName, componentName, issues with
  | .ok typescript, .ok strictMode, .ok indentWidth, .ok sourceName, .ok componentName, [] =>
    .ok { typescript, strictMode, indentWidth, sourceName, componentName }
  | _, _, _, _, _, issues => .error issues

/-- The issues in words. -/
def optionIssuesText (issues : List (String × OptionIssue)) : String :=
  "; ".intercalate (issues.map fun e => s!"{e.1}: {e.2.text}")

end Sveltify
