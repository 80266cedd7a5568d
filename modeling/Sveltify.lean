import Sveltify.Analysis.Body
import Sveltify.Analysis.Component
import Sveltify.Analysis.ModuleLevel
import Sveltify.Analysis.Resolve
import Sveltify.Analysis.Returns
import Sveltify.Assembly.Attributes
import Sveltify.Assembly.Component
import Sveltify.Assembly.Declarations
import Sveltify.Assembly.IndexName
import Sveltify.Assembly.Markup
import Sveltify.Assembly.ModuleItems
import Sveltify.Assembly.Progress
import Sveltify.Assembly.Props
import Sveltify.Component.Candidate
import Sveltify.Component.Context
import Sveltify.Component.Model
import Sveltify.Component.Props
import Sveltify.Conversion
import Sveltify.Diagnostic
import Sveltify.Expression.Convert
import Sveltify.Expression.Literal
import Sveltify.Expression.Outdent
import Sveltify.Expression.Splice
import Sveltify.Hook
import Sveltify.Journal
import Sveltify.Jsx.Text
import Sveltify.Options
import Sveltify.Proofs.Analysis.Ownership
import Sveltify.Proofs.Analysis.Reading
import Sveltify.Proofs.Analysis.SetterSites
import Sveltify.Proofs.Assembly.Failure
import Sveltify.Proofs.Assembly.Markup
import Sveltify.Proofs.Assembly.Placeholders
import Sveltify.Proofs.Assembly.Script
import Sveltify.Proofs.Conversion.Recording
import Sveltify.Proofs.Conversion.StrictMode
import Sveltify.Proofs.Expression.ReactFree
import Sveltify.Proofs.Expression.Splice
import Sveltify.Proofs.Expression.Trace
import Sveltify.Proofs.Step
import Sveltify.Proofs.Expression.Copy
import Sveltify.Proofs.Render.Notes
import Sveltify.Proofs.Render.Numbering
import Sveltify.Proofs.Syntax.Apart
import Sveltify.Proofs.Syntax.Tree
import Sveltify.Proofs.Text
import Sveltify.Refusal
import Sveltify.Render.Builder
import Sveltify.Render.Expression
import Sveltify.Render.Tree
import Sveltify.Scope.Declaration
import Sveltify.Scope.Globals
import Sveltify.Scope.Pattern
import Sveltify.Scope.Reference
import Sveltify.Source
import Sveltify.Svelte.Component
import Sveltify.Svelte.Component.Printer
import Sveltify.Svelte.Escape
import Sveltify.Svelte.Markup
import Sveltify.Svelte.Placeholder
import Sveltify.Svelte.Script
import Sveltify.Svelte.Script.Printer
import Sveltify.Svelte.Style
import Sveltify.Svelte.Template
import Sveltify.Svelte.Template.Printer
import Sveltify.Syntax.Module
import Sveltify.Syntax.Node
import Sveltify.Syntax.Preorder
import Sveltify.Table
import Sveltify.Text.Blank
import Sveltify.Text.CaseRuns
import Sveltify.Text.Dedent
import Sveltify.Text.Letter
import Sveltify.Text.Line
import Sveltify.Text.Lowercase
import Sveltify.Text.LowercaseRuns
import Sveltify.Text.Path
import Sveltify.Text.PrintableRuns
import Sveltify.Text.Quoted
import Sveltify.Text.Run
import Sveltify.Text.Utf8
import Sveltify.Text.WordRuns
import Sveltify.Proofs.Analysis.EarlyReturns
import Sveltify.Proofs.Assembly.Branches
import Sveltify.Proofs.Assembly.Effects
import Sveltify.Proofs.Assembly.Layout
import Sveltify.Proofs.Assembly.Patterns
import Sveltify.Proofs.Assembly.Ledger
import Sveltify.Proofs.Assembly.Lost
import Sveltify.Proofs.Assembly.Markers
import Sveltify.Proofs.Assembly.ScriptOrder
import Sveltify.Proofs.Render.Builders
import Sveltify.Proofs.Render.Sites
import Sveltify.Proofs.Render.Findings
import Sveltify.Proofs.Render.Accounts
import Sveltify.Proofs.Analysis.Pieces
import Sveltify.Proofs.Analysis.Collected
import Sveltify.Proofs.Analysis.RefLinks
import Sveltify.Proofs.Render.Shown
import Sveltify.Proofs.Render.Uses
import Sveltify.Proofs.Render.Recorded
import Sveltify.Proofs.Analysis.TopLevel
import Sveltify.Proofs.Analysis.Providers
import Sveltify.Proofs.Analysis.Checked
import Sveltify.Proofs.Analysis.UnknownNames
import Sveltify.Proofs.Analysis.Entries
import Sveltify.Proofs.Analysis.BodyStatements
import Sveltify.Proofs.Analysis.ModuleNames
import Sveltify.Proofs.Svelte.Tokens
import Sveltify.Proofs.Svelte.Nesting
import Sveltify.Proofs.Svelte.Printed
import Sveltify.Proofs.Svelte.ScriptTag
import Sveltify.Proofs.Assembly.Language
import Sveltify.Proofs.Conversion.Typescript
import Sveltify.Proofs.Expression.Exact
import Sveltify.Proofs.Scope.Binders
import Sveltify.Proofs.Analysis.PropNames
import Sveltify.Proofs.Assembly.ListIndices
import Sveltify.Proofs.Expression.Updaters
import Sveltify.Proofs.Svelte.LineBreaks
import Sveltify.Proofs.Assembly.Requests
import Sveltify.Proofs.Expression.Literals
import Sveltify.Proofs.Assembly.Elements
import Sveltify.Proofs.Jsx.Whitespace
import Sveltify.Proofs.Assembly.LiteralText
import Sveltify.Proofs.Svelte.Indentation
import Sveltify.Proofs.Expression.Groups
import Sveltify.Proofs.Positions
import Sveltify.Proofs.Svelte.Entities
import Sveltify.Proofs.Svelte.Comments
import Sveltify.Proofs.Assembly.ScriptComments
import Sveltify.Proofs.Syntax.Traversal
import Sveltify.Proofs.Svelte.StyleNames
import Sveltify.Proofs.Expression.Margin
import Sveltify.Proofs.Assembly.Imports
import Sveltify.Proofs.Assembly.IndexSearch
