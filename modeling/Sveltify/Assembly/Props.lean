import Sveltify.Assembly.Progress
import Sveltify.Svelte.Script

namespace Sveltify.Assembly

open Component Svelte

/-!
# The declaration of the props

* `propsDeclaration`: the props as they are received. A forwarded ref comes after the named props
  and the rest at the end.
-/

variable (src : Source) (model : Model)

/-- The entries for forwarded refs. -/
def refEntries : List PropEntry :=
  (model.props.bindings.filter (·.isBindable)).map fun p =>
    { name := "ref", localName := p.localName, isBindable := true }

/-- The entry for a destructured prop. A prop with a pattern of its own keeps that pattern. -/
def propEntry (p : PropBinding) : Assembling PropEntry := do
  if p.node.kind == "pair_pattern" then return { name := ← converted src model p.node }
  else
    match p.defaultValue with
    | some value => return { name := p.name, default := some (← converted src model value) }
    | none => return { name := p.name }

/-- The entries for destructured props, without forwarded refs and the rest. -/
def namedEntries : Assembling (List PropEntry) :=
  (model.props.bindings.filter fun p => !p.isBindable && !p.isRest).mapM (propEntry src model)

/-- The entries that gather the rest. -/
def restEntries : List PropEntry :=
  (model.props.bindings.filter fun p => !p.isBindable && p.isRest).map fun p =>
    { name := p.name, isRest := true }

/-- The declaration of the props, if the component has any. -/
def propsDeclaration : Assembling (Option PropsDeclaration) := do
  let typeText := if model.typescript then model.props.typeText else none
  let refs := refEntries model
  match model.props.pattern with
  | .identifier =>
    if refs.isEmpty then return some { identifier := model.props.identifier, typeText }
    else
      let rest : PropEntry := { name := model.props.identifier.getD "", isRest := true }
      return some { entries := refs ++ [rest], typeText }
  | .absent => return if refs.isEmpty then none else some { entries := refs, typeText }
  | .destructured =>
    let named ← namedEntries src model
    return some { entries := named ++ refs ++ restEntries model, typeText }

end Sveltify.Assembly
