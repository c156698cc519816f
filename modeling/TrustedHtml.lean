import TrustedHtml.Counter
import TrustedHtml.Diagnostics
import TrustedHtml.Text.Blank
import TrustedHtml.Text.Entity
import TrustedHtml.Text.Held
import TrustedHtml.Text.Mark
import TrustedHtml.Text.Quoted
import TrustedHtml.Text.Ranges
import TrustedHtml.Text.Reflow
import TrustedHtml.Text.Unprintable
import TrustedHtml.Decimal.Binary64
import TrustedHtml.Decimal.Shortest
import TrustedHtml.Json.Basic
import TrustedHtml.Json.Writer
import TrustedHtml.Json.Reader
import TrustedHtml.Url.Domain.Ascii
import TrustedHtml.Url.Domain.CombiningClass
import TrustedHtml.Url.Domain.Composition
import TrustedHtml.Url.Domain.Direction
import TrustedHtml.Url.Domain.Joining
import TrustedHtml.Url.Domain.Label
import TrustedHtml.Url.Domain.Mapping
import TrustedHtml.Url.Domain.Punycode
import TrustedHtml.Url.Host
import TrustedHtml.Url.Ipv4
import TrustedHtml.Url.Ipv6
import TrustedHtml.Url.Path
import TrustedHtml.Url.Percent
import TrustedHtml.Url.Reader
import TrustedHtml.Url.Web
import TrustedHtml.Trust.AttributeLevel
import TrustedHtml.Trust.Error
import TrustedHtml.Trust.Escape
import TrustedHtml.Trust.Level
import TrustedHtml.Trust.LevelOfJson
import TrustedHtml.Trust.SafeString
import TrustedHtml.Schema.Basic
import TrustedHtml.Schema.Declare
import TrustedHtml.Schema.Dump
import TrustedHtml.Schema.Handle
import TrustedHtml.Schema.Indexed
import TrustedHtml.Schema.Renumber
import TrustedHtml.Error.Failure
import TrustedHtml.Error.Misuse
import TrustedHtml.Error.Structure
import TrustedHtml.Values.Basic
import TrustedHtml.Values.Dump
import TrustedHtml.Binding.Arg
import TrustedHtml.Binding.Bind
import TrustedHtml.Binding.Declare
import TrustedHtml.Binding.OfJson
import TrustedHtml.Node.Basic
import TrustedHtml.Node.Builder
import TrustedHtml.Node.Catalogue
import TrustedHtml.Node.Content
import TrustedHtml.Template.Assemble
import TrustedHtml.Template.Basic
import TrustedHtml.Template.Compile
import TrustedHtml.Template.Options
import TrustedHtml.Template.OptionsOfJson
import TrustedHtml.Template.Program
import TrustedHtml.Template.Render
import TrustedHtml.Template.Renumber
import TrustedHtml.Page.Article
import TrustedHtml.Page.ArticlePage
import TrustedHtml.Page.TablePage
import TrustedHtml.Main
import TrustedHtml.Proofs.ArticlePages
import TrustedHtml.Proofs.BindingMeaning
import TrustedHtml.Proofs.Contents
import TrustedHtml.Proofs.DeclarationHistory
import TrustedHtml.Proofs.DirectEvaluation
import TrustedHtml.Proofs.Interchange
import TrustedHtml.Proofs.KeyNames
import TrustedHtml.Proofs.Layout
import TrustedHtml.Proofs.Markup
import TrustedHtml.Proofs.Noninterference
import TrustedHtml.Proofs.ParseBack
import TrustedHtml.Proofs.Resolving
import TrustedHtml.Proofs.Separation
import TrustedHtml.Proofs.Sinks
import TrustedHtml.Proofs.Traversal
import TrustedHtml.Proofs.TrustSoundness
import TrustedHtml.Proofs.TrustedWrites
import TrustedHtml.Proofs.UntrustedText
import TrustedHtml.Proofs.Violations
import TrustedHtml.Proofs.StrictLevels
import TrustedHtml.Proofs.LineFilling
import TrustedHtml.Proofs.DocumentValues
import TrustedHtml.Proofs.BlockLines
import TrustedHtml.Proofs.Encoding
import TrustedHtml.Proofs.TextFidelity
import TrustedHtml.Proofs.ParallelRuns
import TrustedHtml.Proofs.Merging
import TrustedHtml.Proofs.Grouping
import TrustedHtml.Proofs.Columns
import TrustedHtml.Proofs.AttributeNames
import TrustedHtml.Proofs.Dumps
import TrustedHtml.Proofs.BuildingErrors
import TrustedHtml.Proofs.NameTables
