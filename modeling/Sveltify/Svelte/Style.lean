import Sveltify.Text.Letter

namespace Sveltify.Svelte

open Text

/-!
# Style properties and their numbers

* `styleProperty`: the hyphenated name of a style property given in camel case;
* `styleNumber`: a numeric style value, with the unit `px` where the property takes one.
-/

/-! ### Names -/

/-- Names that stand for a vendor when a capital follows. -/
def vendors : List (List Char) := ["Webkit".toList, "Moz".toList, "ms".toList, "O".toList]

/-- Split off a vendor that is followed by a capital. -/
def splitVendor? (name : List Char) : Option (List Char × List Char) :=
  vendors.findSome? fun v =>
    if v.isPrefixOf name && (name.drop v.length).head?.any isCapital then
      some (v, name.drop v.length)
    else none

/-- A capital in lower case after a hyphen; anything else stays. -/
def hyphenChar (c : Char) : List Char := if isCapital c then ['-', c.toLower] else [c]

/-- Put a hyphen before each capital and write it in lower case. -/
def hyphenate (name : List Char) : List Char := name.flatMap hyphenChar

/-- The first character in lower case. -/
def lowerFirst : List Char → List Char
  | [] => []
  | c :: cs => c.toLower :: cs

/-- The hyphenated name: `fontSize` is `font-size`, and `WebkitTransform` is
`-webkit-transform`. A custom property keeps its name. -/
def styleProperty (name : String) : String :=
  let cs := name.toList
  if "--".toList.isPrefixOf cs then name
  else
    match splitVendor? cs with
    | some (vendor, rest) =>
      String.ofList ('-' :: vendor.map Char.toLower ++ '-' :: hyphenate (lowerFirst rest))
    | none => String.ofList (hyphenate cs)

/-! ### Numbers -/

/-- Properties whose numbers have no unit. -/
def unitlessProperties : List String :=
  ["animationIterationCount", "aspectRatio", "borderImageOutset", "borderImageSlice",
   "borderImageWidth", "boxFlex", "boxFlexGroup", "boxOrdinalGroup", "columnCount", "columns",
   "flex", "flexGrow", "flexPositive", "flexShrink", "flexNegative", "flexOrder", "gridArea",
   "gridRow", "gridRowEnd", "gridRowSpan", "gridRowStart", "gridColumn", "gridColumnEnd",
   "gridColumnSpan", "gridColumnStart", "fontWeight", "lineClamp", "lineHeight", "opacity",
   "order", "orphans", "scale", "tabSize", "widows", "zIndex", "zoom", "fillOpacity",
   "floodOpacity", "stopOpacity", "strokeDasharray", "strokeDashoffset", "strokeMiterlimit",
   "strokeOpacity", "strokeWidth"]

/-- The digits before and after the point of an unsigned decimal literal. -/
def decimalParts? (cs : List Char) : Option (List Char × List Char) :=
  let whole := cs.takeWhile isDecimal
  match cs.dropWhile isDecimal with
  | [] => if whole.isEmpty then none else some (whole, [])
  | '.' :: fraction =>
    if fraction.all isDecimal && !(whole.isEmpty && fraction.isEmpty) then some (whole, fraction)
    else none
  | _ => none

/-- The value of a row of decimal digits. -/
def decimalDigits (cs : List Char) : Nat := cs.foldl (fun n c => n * 10 + decimalValue c) 0

/-- Is the literal a signed decimal number that rounds to zero as a double-precision number? The
smallest number that does not is above `2 ^ -1075`. A line feed at the end is passed over. -/
def isZeroLiteral (literal : String) : Bool :=
  let cs := literal.toList
  let cs := if cs.getLast? == some '\n' then cs.dropLast else cs
  let cs := match cs with
    | '-' :: rest => rest
    | _ => cs
  match decimalParts? cs with
  | none => false
  | some (whole, fraction) =>
    decide (decimalDigits (whole ++ fraction) * Nat.pow 2 1075 ≤ Nat.pow 10 fraction.length)

/-- A numeric style value: zero and the numbers of unitless and custom properties stand alone, all
others are lengths in `px`. -/
def styleNumber (property literal : String) : String :=
  if unitlessProperties.contains property || "--".toList.isPrefixOf property.toList then literal
  else if isZeroLiteral literal then literal
  else literal ++ "px"

end Sveltify.Svelte
