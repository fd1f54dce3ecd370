import MarkdownServer.Address
import MarkdownServer.CommandLine
import MarkdownServer.Http.Exchange
import MarkdownServer.Http.Limits
import MarkdownServer.Http.Service
import MarkdownServer.Http.SessionId
import MarkdownServer.Http.Store
import MarkdownServer.Json.Draft
import MarkdownServer.Json.Fault
import MarkdownServer.Json.Mismatch
import MarkdownServer.Json.Numeral
import MarkdownServer.Json.Printer
import MarkdownServer.Json.Record
import MarkdownServer.Json.Schema
import MarkdownServer.Json.Text
import MarkdownServer.Json.Value
import MarkdownServer.Log
import MarkdownServer.Main
import MarkdownServer.Markdown.Autolink
import MarkdownServer.Markdown.Container
import MarkdownServer.Markdown.Content
import MarkdownServer.Markdown.Definition
import MarkdownServer.Markdown.Document
import MarkdownServer.Markdown.Emphasis
import MarkdownServer.Markdown.Entity
import MarkdownServer.Markdown.Entity.Names
import MarkdownServer.Markdown.Event
import MarkdownServer.Markdown.Html
import MarkdownServer.Markdown.Interrupt
import MarkdownServer.Markdown.Link
import MarkdownServer.Markdown.Marker
import MarkdownServer.Markdown.Parse
import MarkdownServer.Markdown.RawHtml
import MarkdownServer.Markdown.Scan
import MarkdownServer.Markdown.Source
import MarkdownServer.Markdown.Structure
import MarkdownServer.Markdown.Table
import MarkdownServer.Numeric.Double
import MarkdownServer.Numeric.Shortest
import MarkdownServer.Program
import MarkdownServer.Proofs.Http.BodyLimit
import MarkdownServer.Proofs.Http.Capacity
import MarkdownServer.Proofs.Http.History
import MarkdownServer.Proofs.Http.Lifetime
import MarkdownServer.Proofs.Http.Outcome
import MarkdownServer.Proofs.Http.Posting
import MarkdownServer.Proofs.Http.Refinement
import MarkdownServer.Proofs.Http.Store
import MarkdownServer.Proofs.Http.Sweeping
import MarkdownServer.Proofs.Json.Acceptance
import MarkdownServer.Proofs.Json.Conformance
import MarkdownServer.Proofs.Json.Grammar
import MarkdownServer.Proofs.Json.Integers
import MarkdownServer.Proofs.Json.Listing
import MarkdownServer.Proofs.Json.Literals
import MarkdownServer.Proofs.Json.Members
import MarkdownServer.Proofs.Json.Parts
import MarkdownServer.Proofs.Json.Plain
import MarkdownServer.Proofs.Json.Records
import MarkdownServer.Proofs.Json.RoundTrip
import MarkdownServer.Proofs.Json.Scalars
import MarkdownServer.Proofs.Json.Size
import MarkdownServer.Proofs.Json.Steps
import MarkdownServer.Proofs.Json.Suffix
import MarkdownServer.Proofs.Json.Texts
import MarkdownServer.Proofs.Json.Trailing
import MarkdownServer.Proofs.Json.Written
import MarkdownServer.Proofs.Markdown.Nesting
import MarkdownServer.Proofs.Markdown.Provenance.Basic
import MarkdownServer.Proofs.Markdown.Provenance.Block
import MarkdownServer.Proofs.Markdown.Provenance.Inline
import MarkdownServer.Proofs.Markdown.Provenance.Kinds
import MarkdownServer.Proofs.Markdown.Regularity
import MarkdownServer.Proofs.Markdown.Sequences
import MarkdownServer.Proofs.Protocol.Grammar
import MarkdownServer.Proofs.Protocol.Reading
import MarkdownServer.Proofs.Server.Calls
import MarkdownServer.Proofs.Server.Correlation
import MarkdownServer.Proofs.Server.Turn
import MarkdownServer.Proofs.Session.Lifecycle
import MarkdownServer.Proofs.Session.Steadiness
import MarkdownServer.Proofs.Settings.Decoding
import MarkdownServer.Proofs.Stream.Framing
import MarkdownServer.Proofs.Stream.LineEnds
import MarkdownServer.Proofs.Stream.Lines
import MarkdownServer.Proofs.Stream.Reading
import MarkdownServer.Proofs.Stream.RoundTrip
import MarkdownServer.Proofs.Stream.Shutdown
import MarkdownServer.Proofs.Text.Utf8
import MarkdownServer.Proofs.Tools.Registration
import MarkdownServer.Proofs.Tools.Results
import MarkdownServer.Proofs.Tools.Schemas
import MarkdownServer.Proofs.Tools.Themes
import MarkdownServer.Proofs.Wiki.Bold
import MarkdownServer.Proofs.Wiki.Braces
import MarkdownServer.Proofs.Wiki.Cleanup
import MarkdownServer.Proofs.Wiki.Destinations
import MarkdownServer.Proofs.Wiki.Events
import MarkdownServer.Proofs.Wiki.Glyphs
import MarkdownServer.Proofs.Wiki.Headings
import MarkdownServer.Proofs.Wiki.Items
import MarkdownServer.Proofs.Wiki.Lines
import MarkdownServer.Proofs.Wiki.Links
import MarkdownServer.Proofs.Wiki.Macros
import MarkdownServer.Proofs.Wiki.Markup
import MarkdownServer.Proofs.Wiki.Options
import MarkdownServer.Proofs.Wiki.Page
import MarkdownServer.Proofs.Wiki.Prefix
import MarkdownServer.Proofs.Wiki.Rows
import MarkdownServer.Proofs.Wiki.Shape
import MarkdownServer.Proofs.Wiki.Shown
import MarkdownServer.Proofs.Wiki.Siblings
import MarkdownServer.Proofs.Wiki.Spans
import MarkdownServer.Proofs.Wiki.Targets
import MarkdownServer.Proofs.Wiki.Themes
import MarkdownServer.Protocol.Message
import MarkdownServer.Protocol.Params
import MarkdownServer.Protocol.Reply
import MarkdownServer.Protocol.Version
import MarkdownServer.Rendering
import MarkdownServer.Server
import MarkdownServer.Session
import MarkdownServer.Settings.Basic
import MarkdownServer.Settings.File
import MarkdownServer.Settings.Format
import MarkdownServer.Stream.Line
import MarkdownServer.Stream.Serve
import MarkdownServer.Templates
import MarkdownServer.Text.Blank
import MarkdownServer.Text.CaseFold
import MarkdownServer.Text.CharSet
import MarkdownServer.Text.Digits
import MarkdownServer.Text.Punctuation
import MarkdownServer.Text.Quoted
import MarkdownServer.Text.Utf8
import MarkdownServer.Tools.Arguments
import MarkdownServer.Tools.Conversion
import MarkdownServer.Tools.Pages
import MarkdownServer.Tools.Registry
import MarkdownServer.Tools.Standard
import MarkdownServer.Tools.Tool
import MarkdownServer.Wiki.Cleanup
import MarkdownServer.Wiki.Convert
import MarkdownServer.Wiki.Theme
import MarkdownServer.Wiki.Writer
import MarkdownServer.Proofs.Json.Ranges
import MarkdownServer.Proofs.Settings.Acceptance
import MarkdownServer.Proofs.Program.Setup
import MarkdownServer.Proofs.Program.ThemeWarning
