import Sveltify.Refusal
import Sveltify.Syntax.Preorder
import Sveltify.Text.Blank
import Sveltify.Text.Letter

namespace Sveltify

open Text

/-!
# Hooks

React hooks are calls of functions with certain names.

* `HookKind`: the hooks that are told apart;
* `HookCall`: a call of a hook with its arguments;
* `Hook.match?`: the hook that an expression calls;
* `Hook.dependencyTexts`, `Hook.isEmptyList`: readings of a dependency list.
-/

/-- The hooks that are told apart. -/
inductive HookKind where
  | useState
  | useReducer
  | useMemo
  | useCallback
  | useEffect
  | useLayoutEffect
  | useContext
  | useRef
  | createContext
  | useId
  | useDebugValue
  /-- A hook of React without counterpart. -/
  | unsupported
  /-- A hook of the module's own making. -/
  | custom
deriving Repr, DecidableEq

/-- The word for a kind of hook. -/
def HookKind.text : HookKind → String
  | .useState => "useState"
  | .useReducer => "useReducer"
  | .useMemo => "useMemo"
  | .useCallback => "useCallback"
  | .useEffect => "useEffect"
  | .useLayoutEffect => "useLayoutEffect"
  | .useContext => "useContext"
  | .useRef => "useRef"
  | .createContext => "createContext"
  | .useId => "useId"
  | .useDebugValue => "useDebugValue"
  | .unsupported => "unsupported"
  | .custom => "custom"

/-- The hooks known by their names. -/
def knownHooks : List HookKind :=
  [.useState, .useReducer, .useMemo, .useCallback, .useEffect, .useLayoutEffect, .useContext,
   .useRef, .createContext, .useId, .useDebugValue]

/-- Hooks of React that have no counterpart. -/
def unsupportedHooks : List String :=
  ["useTransition", "useDeferredValue", "useImperativeHandle", "useSyncExternalStore",
   "useInsertionEffect", "useOptimistic", "useActionState", "useFormStatus", "use"]

/-- Does the name follow the rule for hooks: `use`, then a capital or a digit? -/
def isHookName (name : String) : Bool :=
  match name.toList with
  | 'u' :: 's' :: 'e' :: c :: _ => isCapital c || isAsciiDigit c
  | _ => false

/-- The kind of hook that a name stands for. -/
def HookKind.ofName? (name : String) : Option HookKind :=
  match knownHooks.find? (·.text == name) with
  | some kind => some kind
  | none =>
    if unsupportedHooks.contains name then some .unsupported
    else if isHookName name then some .custom
    else none

/-- A call of a hook. -/
structure HookCall where
  kind : HookKind
  name : String
  node : Node
  arguments : List Node
  typeArguments : Option String
deriving Repr

/-- The argument at a place, counted from zero. -/
def HookCall.argument? (h : HookCall) (i : Nat) : Option Node := h.arguments[i]?

/-- The argument at a place that is counted from zero or, if it is negative, back from the end.
There is none after the last, and no place before the first. -/
def HookCall.argumentAt (h : HookCall) (i : Int) : Except Failure (Option Node) :=
  if 0 ≤ i then .ok (h.argument? i.toNat)
  else if -i ≤ h.arguments.length then .ok (h.argument? (h.arguments.length - (-i).toNat))
  else .error .incomplete

namespace Hook

variable (src : Source)

/-- The name in a call `name(…)` or `React.name(…)`. -/
def calledName? (call : Node) : Option String :=
  if call.kind == "call_expression" then
    match call.field? "function" with
    | none => none
    | some f =>
      if f.kind == "identifier" then some (src.text f)
      else if f.kind == "member_expression" then
        match f.field? "object", f.field? "property" with
        | some object, some property =>
          if src.text object == "React" then some (src.text property) else none
        | _, _ => none
      else none
  else none

/-- The arguments of a call. -/
def argumentsOf (call : Node) : List Node :=
  ((call.field? "arguments").map Node.namedChildren).getD []

/-- The hook that an expression without wrappers calls. -/
def ofCall? (call : Node) : Option HookCall :=
  match calledName? src call with
  | none => none
  | some name =>
    match HookKind.ofName? name with
    | none => none
    | some kind =>
      some {
        kind, name, node := call
        arguments := argumentsOf call
        typeArguments :=
          (call.field? "type_arguments").map fun t => strip (withoutEnds (src.text t)) }

/-- The hook that an expression calls, wrappers around the call not counted. -/
def match? (n : Option Node) : Except Failure (Option HookCall) :=
  match n with
  | none => .ok none
  | some n => do
    let call ← need n.bare?
    return ofCall? src call

/-- Does the expression call a hook of React? -/
def callsHook (n : Node) : Except Failure Bool := do
  let hook ← match? src (some n)
  return hook.any (·.kind != .custom)

/-- The entries of a dependency list as texts. -/
def dependencyTexts (deps : Option Node) : List String :=
  match deps with
  | some d => if d.kind == "array" then d.namedChildren.map src.text else []
  | none => []

/-- Is there a list without entries? -/
def isEmptyList (n : Option Node) : Bool :=
  n.any fun d => d.kind == "array" && d.namedChildren.isEmpty

end Hook

end Sveltify
