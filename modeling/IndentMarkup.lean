import IndentMarkup.Embedding
import IndentMarkup.Main
import IndentMarkup.Proofs.Html.Forest
import IndentMarkup.Proofs.Outline
import IndentMarkup.Proofs.Template.RoundTrip
import IndentMarkup.Proofs.Html.Nesting
import IndentMarkup.Proofs.Html.Tags
import IndentMarkup.Proofs.Compile
import IndentMarkup.Proofs.Html.Balance
import IndentMarkup.Proofs.Canonical.FixedPoint
import IndentMarkup.Proofs.Canonical.Layout
import IndentMarkup.Proofs.Contents
import IndentMarkup.Proofs.Html.Levels
import IndentMarkup.Proofs.Charset
import IndentMarkup.Proofs.CommandLine.Conversion
import IndentMarkup.Proofs.Canonical.Edits
import IndentMarkup.Proofs.Html.Rows
import IndentMarkup.Proofs.Sections
import IndentMarkup.Proofs.Html.Reading
import IndentMarkup.Proofs.Charset.Inverse
import IndentMarkup.Proofs.Charset.Errors
import IndentMarkup.Proofs.CommandLine.Files
import IndentMarkup.Proofs.CommandLine.CanonicalPass
import IndentMarkup.Proofs.CommandLine.Embedding
import IndentMarkup.Proofs.Log
import IndentMarkup.Proofs.Selector.OnePass
import IndentMarkup.Proofs.Selector.Attributes
import IndentMarkup.Proofs.Selector.WellFormed
import IndentMarkup.Proofs.Canonical.Indentation
import IndentMarkup.Proofs.InlineBlock.Containment
import IndentMarkup.Proofs.InlineBlock.Jumps
import IndentMarkup.Proofs.InlineBlock.Selector
import IndentMarkup.Proofs.Attributes.OrderedMap
import IndentMarkup.Proofs.InlineBlock.Restart
import IndentMarkup.Proofs.Slices
import IndentMarkup.Proofs.Html.Stack
