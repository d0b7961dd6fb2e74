import ViewForge.Component.Basic
import ViewForge.Component.Build
import ViewForge.Component.Default
import ViewForge.Component.Hook
import ViewForge.Component.OfSource
import ViewForge.Component.Record
import ViewForge.Component.Shape
import ViewForge.Component.Signature
import ViewForge.Controller
import ViewForge.Data.Assoc
import ViewForge.Data.Checked
import ViewForge.Data.Toml
import ViewForge.Data.Value
import ViewForge.Erb.Directive
import ViewForge.Erb.Format
import ViewForge.Erb.Tag
import ViewForge.Erb.Token
import ViewForge.Main
import ViewForge.Markup.Handler
import ViewForge.Markup.Html
import ViewForge.Markup.Node
import ViewForge.Markup.OfTree
import ViewForge.Markup.Render
import ViewForge.Markup.Spacing
import ViewForge.Naming
import ViewForge.Placeholder
import ViewForge.Project.Artifact
import ViewForge.Project.Batch
import ViewForge.Project.Command
import ViewForge.Project.Conversion
import ViewForge.Project.Load
import ViewForge.Project.Path
import ViewForge.Project.Pattern
import ViewForge.Project.Report
import ViewForge.Project.Search
import ViewForge.Project.Session
import ViewForge.Project.Settings
import ViewForge.Project.Store
import ViewForge.Project.Writer
import ViewForge.Proofs.Component.DefaultTexts
import ViewForge.Proofs.Component.Defaults
import ViewForge.Proofs.Component.Extraction
import ViewForge.Proofs.Component.KeptDefaults
import ViewForge.Proofs.Component.NormalForm
import ViewForge.Proofs.Component.RootClasses
import ViewForge.Proofs.Component.Styles
import ViewForge.Proofs.Controller
import ViewForge.Proofs.Erb.AttributeLayout
import ViewForge.Proofs.Erb.Clean
import ViewForge.Proofs.Erb.Control
import ViewForge.Proofs.Erb.DirectiveLayout
import ViewForge.Proofs.Erb.Join
import ViewForge.Proofs.Erb.Layout
import ViewForge.Proofs.Erb.LayoutContent
import ViewForge.Proofs.Erb.Lines
import ViewForge.Proofs.Erb.Nesting
import ViewForge.Proofs.Erb.Partition
import ViewForge.Proofs.Erb.Program
import ViewForge.Proofs.Erb.Scan
import ViewForge.Proofs.Erb.Spacing
import ViewForge.Proofs.Erb.TagEdits
import ViewForge.Proofs.Erb.TagLayout
import ViewForge.Proofs.Markup.Accounting
import ViewForge.Proofs.Markup.Attributes
import ViewForge.Proofs.Markup.Bindings
import ViewForge.Proofs.Markup.Block
import ViewForge.Proofs.Markup.Coverage
import ViewForge.Proofs.Markup.Evaluation
import ViewForge.Proofs.Markup.FreeNames
import ViewForge.Proofs.Markup.Quiet
import ViewForge.Proofs.Markup.Scoping
import ViewForge.Proofs.Markup.Spacing
import ViewForge.Proofs.Markup.StringLiterals
import ViewForge.Proofs.Markup.TagAttributes
import ViewForge.Proofs.Markup.Tiling
import ViewForge.Proofs.Markup.TokenSequence
import ViewForge.Proofs.Naming
import ViewForge.Proofs.Numerals
import ViewForge.Proofs.Placeholder
import ViewForge.Proofs.Project.Collisions
import ViewForge.Proofs.Project.ConstantPaths
import ViewForge.Proofs.Project.Deeds
import ViewForge.Proofs.Project.Logging
import ViewForge.Proofs.Project.Places
import ViewForge.Proofs.Project.Preservation
import ViewForge.Proofs.Project.Totals
import ViewForge.Proofs.Project.Writes
import ViewForge.Proofs.Ruby.Balance
import ViewForge.Proofs.Ruby.Calls
import ViewForge.Proofs.Ruby.Constructor
import ViewForge.Proofs.Ruby.Quoting
import ViewForge.Proofs.Ruby.Reading
import ViewForge.Proofs.Script.Interpolation
import ViewForge.Proofs.Script.Literals
import ViewForge.Proofs.Script.Segments
import ViewForge.Proofs.Script.Strings
import ViewForge.Proofs.Script.Templates
import ViewForge.Proofs.Script.Unescaping
import ViewForge.Proofs.Source.Spans
import ViewForge.Proofs.Source.Traversal
import ViewForge.Proofs.Template.Actions
import ViewForge.Proofs.Template.AttributeValues
import ViewForge.Proofs.Template.Calls
import ViewForge.Proofs.Template.Children
import ViewForge.Proofs.Template.CodeMapping
import ViewForge.Proofs.Template.Content
import ViewForge.Proofs.Template.Controllers
import ViewForge.Proofs.Template.Forest
import ViewForge.Proofs.Template.Rewording
import ViewForge.Proofs.Template.Slots
import ViewForge.Proofs.Template.Wiring
import ViewForge.Proofs.Text.Bytes
import ViewForge.Proofs.Text.References
import ViewForge.Proofs.Text.Respacing
import ViewForge.Proofs.Text.Splitting
import ViewForge.Proofs.Warnings
import ViewForge.Ruby.Block
import ViewForge.Ruby.Class
import ViewForge.Ruby.Companion
import ViewForge.Ruby.Literal
import ViewForge.Script.Interpolation
import ViewForge.Script.Segment
import ViewForge.Script.ToRuby
import ViewForge.Source.Binding
import ViewForge.Source.Dialect
import ViewForge.Source.Element
import ViewForge.Source.Expression
import ViewForge.Source.Function
import ViewForge.Source.Grammar
import ViewForge.Source.Parse
import ViewForge.Source.Scan
import ViewForge.Source.Scope
import ViewForge.Source.Statement
import ViewForge.Source.Tree
import ViewForge.Source.TypeGrammar
import ViewForge.Template.Basic
import ViewForge.Template.Binding
import ViewForge.Template.Code
import ViewForge.Template.Icon
import ViewForge.Template.Reference
import ViewForge.Text.Basic
import ViewForge.Text.Entity
import ViewForge.Text.Letter
import ViewForge.Text.Utf8
