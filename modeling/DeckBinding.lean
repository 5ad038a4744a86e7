import DeckBinding.Text.Blank
import DeckBinding.Text.Case
import DeckBinding.Text.Digit
import DeckBinding.Text.Lines
import DeckBinding.Text.Split
import DeckBinding.Text.Surrogate
import DeckBinding.Text.Quoted
import DeckBinding.Text.Word
import DeckBinding.Number.Power
import DeckBinding.Number.Rounding
import DeckBinding.Number.Numeral
import DeckBinding.Number.Binary64
import DeckBinding.Number.Shortest
import DeckBinding.Number.Decimal
import DeckBinding.Number.Grouping
import DeckBinding.Calendar.Date
import DeckBinding.Calendar.Moment
import DeckBinding.Calendar.IsoText
import DeckBinding.Calendar.Pattern
import DeckBinding.Value.Access
import DeckBinding.Value.Plain
import DeckBinding.Value.Merge
import DeckBinding.Value.Render
import DeckBinding.Path.Basic
import DeckBinding.Path.Reader
import DeckBinding.Path.Walk
import DeckBinding.Expression.Scan
import DeckBinding.Expression.Basic
import DeckBinding.Expression.Reader
import DeckBinding.Format.Number
import DeckBinding.Format.Value
import DeckBinding.Diagnostic
import DeckBinding.Data.Json
import DeckBinding.Expression.Reading
import DeckBinding.Directive.Basic
import DeckBinding.Directive.Reader
import DeckBinding.Keyed
import DeckBinding.Warning
import DeckBinding.Alias.Table
import DeckBinding.Template.Basic
import DeckBinding.Template.Analysis
import DeckBinding.Value.Integer
import DeckBinding.Progress
import DeckBinding.Plan.Instance
import DeckBinding.Plan.Window
import DeckBinding.Plan.Basic
import DeckBinding.Resolution.Outcome
import DeckBinding.Resolution.Walk
import DeckBinding.Resolution.Resolver
import DeckBinding.Paragraph.Redistribution
import DeckBinding.Paragraph.Reconciliation
import DeckBinding.Binding
import DeckBinding.Data.Yaml.Node
import DeckBinding.Data.Yaml.Scalar
import DeckBinding.Data.Yaml.Cursor
import DeckBinding.Data.Yaml.ScalarText
import DeckBinding.Data.Yaml.Token
import DeckBinding.Data.Yaml.Content
import DeckBinding.Data.Yaml.Reader
import DeckBinding.Text.Removal
import DeckBinding.Deck.Shape
import DeckBinding.Deck.Notes
import DeckBinding.Deck.Placement
import DeckBinding.Deck.Basic
import DeckBinding.File.Location
import DeckBinding.File.Store
import DeckBinding.Data.Loading
import DeckBinding.Value.Members
import DeckBinding.Configuration.Basic
import DeckBinding.Configuration.Loading
import DeckBinding.Deck.RunText
import DeckBinding.Deck.Edit
import DeckBinding.Presentation
import DeckBinding.CommandLine.Arguments
import DeckBinding.CommandLine.Run
import DeckBinding.Data.JsonText
import DeckBinding.Deck.Document
import DeckBinding.CommandLine.Consulted
import DeckBinding.Main
import DeckBinding.Proofs.Expression.Pieces
import DeckBinding.Proofs.Expression.Spans
import DeckBinding.Proofs.Paragraph.Division
import DeckBinding.Proofs.Paragraph.Shares
import DeckBinding.Proofs.Resolution.Cache
import DeckBinding.Proofs.Resolution.Filling
import DeckBinding.Proofs.Resolution.Locality
import DeckBinding.Proofs.Paragraph.Groups
import DeckBinding.Proofs.Paragraph.Reconciliation
import DeckBinding.Proofs.Number.Ceiling
import DeckBinding.Proofs.Number.Numeral
import DeckBinding.Proofs.Outcome
import DeckBinding.Proofs.Path.RoundTrip
import DeckBinding.Proofs.Path.Steps
import DeckBinding.Proofs.Path.Collections
import DeckBinding.Proofs.Resolution.Follow
import DeckBinding.Proofs.Directive.Foreach
import DeckBinding.Proofs.Generation.Slide
import DeckBinding.Proofs.Path.Selection
import DeckBinding.Proofs.Generation.Template
import DeckBinding.Proofs.Resolution.Selection
import DeckBinding.Proofs.Generation.Pages
import DeckBinding.Proofs.Generation.Flat
import DeckBinding.Proofs.Generation.Nested
import DeckBinding.Proofs.Path.Parts
import DeckBinding.Proofs.Plan.Windows
import DeckBinding.Proofs.Plan.Instances
import DeckBinding.Proofs.Plan.Deck
import DeckBinding.Proofs.Plan.Order
import DeckBinding.Proofs.Resolution.Context
import DeckBinding.Proofs.Plan.Context
import DeckBinding.Proofs.Resolution.Crossing
import DeckBinding.Proofs.Plan.Blank
import DeckBinding.Proofs.Resolution.PlainWalk
import DeckBinding.Proofs.Alias.Chain
import DeckBinding.Proofs.Alias.Cycles
import DeckBinding.Proofs.Alias.Meaning
import DeckBinding.Proofs.Plan.Expansion
import DeckBinding.Proofs.Resolution.Together
import DeckBinding.Proofs.Alias.Names
import DeckBinding.Proofs.Resolution.Trusted
import DeckBinding.Proofs.Generation.CallFree
import DeckBinding.Proofs.Generation.History
import DeckBinding.Proofs.Alias.Idempotence
import DeckBinding.Proofs.Expression.Readable
import DeckBinding.Proofs.Directive.Readable
import DeckBinding.Proofs.Resolution.Literal
import DeckBinding.Proofs.Plan.Returns
import DeckBinding.Proofs.Generation.Returns
import DeckBinding.Proofs.Deck.Rewriting
import DeckBinding.Proofs.Deck.Rendering
import DeckBinding.Proofs.Deck.Appending
import DeckBinding.Proofs.File.Writing
import DeckBinding.Proofs.Deck.Presentation
import DeckBinding.Proofs.CommandLine.Exit
import DeckBinding.Proofs.Value.Plain
import DeckBinding.Proofs.Plan.Shape
import DeckBinding.Proofs.Plan.Made
import DeckBinding.Proofs.Plan.Pages
import DeckBinding.Proofs.Plan.Openers
import DeckBinding.Proofs.Plan.Visits
import DeckBinding.Proofs.Plan.PageCount
import DeckBinding.Proofs.Plan.RangeEnds
import DeckBinding.Proofs.Resolution.AbsoluteWalk
import DeckBinding.Proofs.Path.Marks
import DeckBinding.Proofs.Template.Collection
import DeckBinding.Proofs.Text.Blanks
import DeckBinding.Proofs.Path.Token
import DeckBinding.Proofs.Path.Spelling
import DeckBinding.Proofs.Directive.Markers
import DeckBinding.Proofs.Directive.Written
import DeckBinding.Proofs.Resolution.Substitution
import DeckBinding.Proofs.Resolution.CurrentElement
import DeckBinding.Proofs.Text.Case
import DeckBinding.Proofs.Directive.Options
import DeckBinding.Proofs.Expression.Arguments
import DeckBinding.Proofs.Expression.Calls
import DeckBinding.Proofs.Number.Magnitude
import DeckBinding.Proofs.Format.Refusal
import DeckBinding.Proofs.Number.Bounded
import DeckBinding.Proofs.Paragraph.Spreading
import DeckBinding.Proofs.Number.FixedPoint
import DeckBinding.Proofs.Format.Rounded
import DeckBinding.Proofs.Format.Percent
import DeckBinding.Proofs.Calendar.Pattern
import DeckBinding.Proofs.Format.DatePattern
import DeckBinding.Proofs.Value.Key
import DeckBinding.Proofs.Value.Merge
import DeckBinding.Proofs.Configuration.Defaults
import DeckBinding.Proofs.Text.Removal
import DeckBinding.Proofs.Generation.Tokens
import DeckBinding.Proofs.Text.Lines
import DeckBinding.Proofs.Directive.Marks
import DeckBinding.Proofs.Deck.Notes
import DeckBinding.Proofs.Template.Followable
import DeckBinding.Proofs.Template.Parsed
import DeckBinding.Proofs.Plan.Guarded
import DeckBinding.Proofs.Plan.Unfailing
