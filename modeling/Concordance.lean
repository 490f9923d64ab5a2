import Concordance.Batch.Compile
import Concordance.Batch.Load
import Concordance.Decimal.Binary64
import Concordance.Definition.Basic
import Concordance.Definition.Excerpt
import Concordance.Definition.Json
import Concordance.Definition.Reading
import Concordance.Definition.Resolve
import Concordance.Definition.Shape
import Concordance.Definition.Toml.Scalar
import Concordance.Definition.Toml.Table
import Concordance.Definition.Toml.Text
import Concordance.Digest.Sha256
import Concordance.Disk.FileTree
import Concordance.Disk.Host
import Concordance.Disk.IoError
import Concordance.Disk.Path
import Concordance.Journal.Directive
import Concordance.Journal.Filter
import Concordance.Journal.Line
import Concordance.Journal.Report
import Concordance.Main
import Concordance.Mapping.Correspondence
import Concordance.Mapping.Crosswalk
import Concordance.Mapping.Rule
import Concordance.Name.Element
import Concordance.Name.Fault
import Concordance.Name.NCName
import Concordance.Name.Namespace
import Concordance.Name.Registry
import Concordance.Order.Ascending
import Concordance.Proofs.Batch.Accounting
import Concordance.Proofs.Batch.Again
import Concordance.Proofs.Batch.Alone
import Concordance.Proofs.Batch.Discovery
import Concordance.Proofs.Batch.Effect
import Concordance.Proofs.Batch.Notations
import Concordance.Proofs.Batch.OutputPath
import Concordance.Proofs.Batch.Overwriting
import Concordance.Proofs.Batch.Rehearsal
import Concordance.Proofs.Batch.Tracking
import Concordance.Proofs.Definition.Checks
import Concordance.Proofs.Definition.Compilable
import Concordance.Proofs.Definition.Described
import Concordance.Proofs.Definition.Edits
import Concordance.Proofs.Definition.Json
import Concordance.Proofs.Definition.Meaning
import Concordance.Proofs.Definition.Notations
import Concordance.Proofs.Definition.Resolved
import Concordance.Proofs.Definition.Strict
import Concordance.Proofs.Definition.Toml.Assignments
import Concordance.Proofs.Definition.Toml.Keys
import Concordance.Proofs.Definition.Toml.Layout
import Concordance.Proofs.Definition.Toml.Strings
import Concordance.Proofs.Definition.Toml.Text
import Concordance.Proofs.Definition.Toml.Values
import Concordance.Proofs.Definition.Datum
import Concordance.Proofs.Definition.WrittenNames
import Concordance.Proofs.Disk.Ledger
import Concordance.Proofs.Disk.Listing
import Concordance.Proofs.Disk.Location
import Concordance.Proofs.Disk.Making
import Concordance.Proofs.Disk.Parent
import Concordance.Proofs.Disk.Path
import Concordance.Proofs.Disk.Rewriting
import Concordance.Proofs.Disk.Styled
import Concordance.Proofs.Disk.Tree
import Concordance.Proofs.Mapping.AttributeSet
import Concordance.Proofs.Mapping.Building
import Concordance.Proofs.Mapping.ChildList
import Concordance.Proofs.Name.Registry
import Concordance.Proofs.Order.Lookup
import Concordance.Proofs.Outcome
import Concordance.Proofs.Stylesheet.Acceptance
import Concordance.Proofs.Stylesheet.Binding
import Concordance.Proofs.Stylesheet.ChildBlocks
import Concordance.Proofs.Stylesheet.Conformity
import Concordance.Proofs.Stylesheet.Declared
import Concordance.Proofs.Stylesheet.Delivery
import Concordance.Proofs.Stylesheet.Determined
import Concordance.Proofs.Stylesheet.Expressions
import Concordance.Proofs.Stylesheet.Extending
import Concordance.Proofs.Stylesheet.Fallback
import Concordance.Proofs.Stylesheet.Names
import Concordance.Proofs.Stylesheet.NamesBound
import Concordance.Proofs.Stylesheet.Origins
import Concordance.Proofs.Stylesheet.Outline
import Concordance.Proofs.Stylesheet.Prefixes
import Concordance.Proofs.Stylesheet.Steady
import Concordance.Proofs.Stylesheet.TakenApart
import Concordance.Proofs.Stylesheet.Written
import Concordance.Proofs.Text.Encoding
import Concordance.Proofs.Transform.Blocks
import Concordance.Proofs.Transform.Direct
import Concordance.Proofs.Transform.Expression
import Concordance.Proofs.Transform.Fallback
import Concordance.Proofs.Transform.Instruction
import Concordance.Proofs.Transform.JoinedText
import Concordance.Proofs.Transform.Program
import Concordance.Proofs.Transform.Reading
import Concordance.Proofs.Transform.Running
import Concordance.Proofs.Transform.Tree
import Concordance.Proofs.Xml.Comment
import Concordance.Proofs.Xml.Conforming
import Concordance.Proofs.Xml.Failing
import Concordance.Proofs.Xml.Names
import Concordance.Proofs.Xml.Pieces
import Concordance.Proofs.Xml.ReadBack
import Concordance.Proofs.Xml.Reader
import Concordance.Proofs.Xml.Scope
import Concordance.Proofs.Xml.Steady
import Concordance.Proofs.Xml.Tidy
import Concordance.Proofs.Xpath.Token
import Concordance.Stylesheet.Declarations
import Concordance.Stylesheet.Error
import Concordance.Stylesheet.Fallback
import Concordance.Stylesheet.Report
import Concordance.Stylesheet.Sink
import Concordance.Stylesheet.Template
import Concordance.Terminal.Desk
import Concordance.Terminal.Escape
import Concordance.Terminal.Options
import Concordance.Terminal.Program
import Concordance.Terminal.Table
import Concordance.Text.Blank
import Concordance.Text.Columns
import Concordance.Text.Emoji
import Concordance.Text.Extent
import Concordance.Text.Hexadecimal
import Concordance.Text.JsonString
import Concordance.Text.Letters
import Concordance.Text.Pattern.Basic
import Concordance.Text.Pattern.Written
import Concordance.Text.Printable
import Concordance.Text.Quoted
import Concordance.Text.Ranges
import Concordance.Text.Width
import Concordance.Xml.Comment
import Concordance.Xml.Event
import Concordance.Xml.Layout
import Concordance.Xml.Markup
import Concordance.Xml.Scope
