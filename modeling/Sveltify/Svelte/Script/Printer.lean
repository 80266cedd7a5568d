import Sveltify.Refusal
import Sveltify.Svelte.Escape
import Sveltify.Svelte.Script
import Sveltify.Text.Line

namespace Sveltify.Svelte

open Text

/-!
# Printing scripts

Every entry of a script becomes one or more lines without indentation of their own.

* `ScriptNode.lines`: the lines of an entry;
* `scriptLines`: the lines of a script; an entry of several lines stands between empty lines.
-/

/-! ### Declarations -/

/-- A type after a colon, if there is one. -/
def typed (typeText : Option String) : String :=
  match nonEmpty? typeText with
  | some t => s!": {t}"
  | none => ""

/-- Type arguments in angle brackets, if there are any. -/
def withArguments (typeArguments : Option String) : String :=
  match nonEmpty? typeArguments with
  | some t => s!"<{t}>"
  | none => ""

/-- One prop in the destructuring of the props. -/
def PropEntry.text (e : PropEntry) : String :=
  if e.isRest then s!"...{e.name}"
  else
    let target := e.name ++ typed e.localName
    if e.isBindable then s!"{target} = $bindable()"
    else
      match e.default with
      | some value => s!"{target} = {value}"
      | none => target

/-- The declaration of the props. -/
def PropsDeclaration.text (d : PropsDeclaration) : String :=
  let destructured :=
    let names := ", ".intercalate (d.entries.map PropEntry.text)
    s!"\x7b {names} \x7d"
  -- Props under one name are not taken apart, unless there are entries.
  let target :=
    match d.identifier, d.entries with
    | some identifier, [] => identifier
    | _, _ => destructured
  s!"let {target}{typed d.typeText} = $props();"

/-- The declaration of a cell of state. -/
def StateDeclaration.text (typescript : Bool) (d : StateDeclaration) : String :=
  let arguments := if typescript then withArguments d.typeArguments else ""
  let initial := d.initial.getD ""
  s!"let {d.name} = $state{arguments}({initial});"

/-- The declaration of a derived value. -/
def DerivedDeclaration.text (d : DerivedDeclaration) : String :=
  let rune := if d.isFunction then "$derived.by" else "$derived"
  s!"let {d.target}{typed d.typeText} = {rune}({d.expression});"

/-- The look-up of a context. -/
def ContextGet.text (d : ContextGet) : String :=
  let key := quoteKey d.key
  let fallback :=
    match d.default with
    | some value => s!" ?? {value}"
    | none => ""
  s!"const {d.target} = getContext({key}){fallback};"

/-- The provision of a context. -/
def ContextSet.text (d : ContextSet) : String :=
  let key := quoteKey d.key
  s!"setContext({key}, {d.value});"

/-- The declaration of a ref. -/
def RefDeclaration.text (typescript : Bool) (d : RefDeclaration) : String :=
  let types := if typescript then d.typeArguments else none
  if d.isReactive then
    let initial := (nonEmpty? d.initial).getD "null"
    s!"let {d.name} = $state{withArguments types}({initial});"
  else
    match d.initial with
    | some initial => s!"let {d.name}{typed types} = {initial};"
    | none => s!"let {d.name}{typed types};"

/-! ### Effects -/

/-- The statements of an effect, with its cleanup returned at the end. -/
def EffectDeclaration.statements (d : EffectDeclaration) : List String :=
  d.body.flatMap lines ++
    match d.cleanup with
    | some cleanup => enclose "return " ";" (lines cleanup)
    | none => []

/-- The call of a function on a callback with the given statements. -/
def callbackLines (indent callee arrow : String) (inner : List String) : List String :=
  if inner.isEmpty then [s!"{callee}({arrow}() => \x7b\x7d);"]
  else s!"{callee}({arrow}() => \x7b" :: padLines indent inner ++ ["\x7d);"]

/-- The lines of an effect. What an untracked effect does is wrapped once more. -/
def EffectDeclaration.lines (indent : String) (d : EffectDeclaration) : List String :=
  let rune := d.rune.text
  match d.functionReference with
  | some f => if d.isUntracked then [s!"{rune}(() => untrack({f}));"] else [s!"{rune}({f});"]
  | none =>
    let arrow := if d.isAsync then "async " else ""
    -- The cleanup is returned inside, so the result of `untrack` is returned in turn.
    if d.isUntracked then
      callbackLines indent rune ""
        (s!"return untrack({arrow}() => \x7b" :: padLines indent d.statements ++ ["\x7d);"])
    else callbackLines indent rune arrow d.statements

/-! ### Placeholders -/

/-- The lines of a placeholder: comments only. -/
def Placeholder.scriptLines (p : Placeholder) : List String :=
  s!"// {p.marker}: {p.reason}" ::
    (Text.lines p.source).map fun line => if line.isEmpty then "//" else s!"// {line}"

/-! ### Scripts -/

/-- The lines of an entry of a script. -/
def ScriptNode.lines (indent : String) (typescript : Bool) :
    ScriptNode → Except PrintError (List String)
  | .props d => .ok (Text.lines d.text)
  | .state d => .ok (Text.lines (d.text typescript))
  | .derived d => .ok (Text.lines d.text)
  | .effect d => .ok (d.lines indent)
  | .contextGet d => .ok (Text.lines d.text)
  | .contextSet d => .ok (Text.lines d.text)
  | .ref d => .ok (Text.lines (d.text typescript))
  | .raw text => .ok (Text.lines text)
  | .placeholder p => .ok p.scriptLines
  | .foreign kind => .error (.unknownScriptNode kind)

/-- The entries after one another; one of several lines is set off by empty lines. -/
def joinEntries : List (List String) → List String
  | [] => []
  | [entry] => entry
  | entry :: next :: rest =>
    let gap := if 1 < entry.length || 1 < next.length then [""] else []
    entry ++ gap ++ joinEntries (next :: rest)

/-- The lines of a script. -/
def scriptLines (indent : String) (typescript : Bool) (nodes : List ScriptNode) :
    Except PrintError (List String) := do
  return joinEntries (← nodes.mapM (ScriptNode.lines indent typescript))

end Sveltify.Svelte
