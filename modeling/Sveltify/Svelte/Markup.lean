import Sveltify.Text.Lowercase

namespace Sveltify.Svelte

open Text

/-!
# Names in markup

* `attributeName`: the name of a DOM attribute;
* `eventName`: the name of an event attribute;
* `isTextField`: does an element report every keystroke?
* `voidElements`: elements without content.
-/

/-- DOM attributes that markup spells differently. -/
def attributeNames : List (String × String) :=
  [("className", "class"), ("htmlFor", "for"), ("defaultValue", "value"),
   ("defaultChecked", "checked"), ("tabIndex", "tabindex"), ("readOnly", "readonly"),
   ("maxLength", "maxlength"), ("minLength", "minlength"), ("autoFocus", "autofocus"),
   ("autoComplete", "autocomplete"), ("autoPlay", "autoplay"), ("colSpan", "colspan"),
   ("rowSpan", "rowspan"), ("contentEditable", "contenteditable"), ("spellCheck", "spellcheck"),
   ("crossOrigin", "crossorigin"), ("srcSet", "srcset"), ("encType", "enctype"),
   ("acceptCharset", "accept-charset"), ("httpEquiv", "http-equiv"), ("noValidate", "novalidate"),
   ("formAction", "formaction"), ("inputMode", "inputmode"), ("enterKeyHint", "enterkeyhint"),
   ("referrerPolicy", "referrerpolicy"), ("playsInline", "playsinline"),
   ("allowFullScreen", "allowfullscreen"), ("dateTime", "datetime"), ("accessKey", "accesskey"),
   ("charSet", "charset"), ("strokeWidth", "stroke-width"), ("strokeLinecap", "stroke-linecap"),
   ("strokeLinejoin", "stroke-linejoin"), ("strokeDasharray", "stroke-dasharray"),
   ("strokeDashoffset", "stroke-dashoffset"), ("strokeOpacity", "stroke-opacity"),
   ("fillOpacity", "fill-opacity"), ("fillRule", "fill-rule"), ("clipRule", "clip-rule"),
   ("clipPath", "clip-path"), ("stopColor", "stop-color"), ("stopOpacity", "stop-opacity"),
   ("textAnchor", "text-anchor"), ("dominantBaseline", "dominant-baseline"),
   ("xlinkHref", "xlink:href")]

/-- The name of an attribute in markup. -/
def attributeName (name : String) : String := (attributeNames.lookup name).getD name

/-- Events that markup spells differently. -/
def eventNames : List (String × String) :=
  [("onDoubleClick", "ondblclick")]

/-- Types of `input` elements that hold a text or a value typed by the user. -/
def textInputTypes : List String :=
  ["text", "email", "password", "search", "tel", "url", "number", "date", "datetime-local",
   "month", "time", "week", "color", "range"]

/-- Is the element a field whose change events come with every keystroke? -/
def isTextField (tag : String) (inputType : Option String) : Bool :=
  tag == "textarea"
    || tag == "input" && (inputType.isNone || inputType.any textInputTypes.contains)

/-- The name of an event attribute: in lower case, and `oninput` for the changes of a text
field. -/
def eventName (name tag : String) (inputType : Option String) : String :=
  match eventNames.lookup name with
  | some renamed => renamed
  | none =>
    if name == "onChange" && isTextField tag inputType then "oninput" else lowercase name

/-- Elements that have neither content nor a closing tag. -/
def voidElements : List String :=
  ["area", "base", "br", "col", "embed", "hr", "img", "input", "link", "meta", "param", "source",
   "track", "wbr"]

end Sveltify.Svelte
