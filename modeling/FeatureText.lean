import FeatureText.Bracket.Balance
import FeatureText.Bracket.Basic
import FeatureText.Bracket.Token
import FeatureText.Decimal.Layout
import FeatureText.Decimal.Shortest
import FeatureText.Digest.SipHash
import FeatureText.Digest.Stream
import FeatureText.Editor.Clipboard
import FeatureText.Editor.Control
import FeatureText.Editor.Display
import FeatureText.Editor.Emission
import FeatureText.Editor.Event
import FeatureText.Editor.Features
import FeatureText.Editor.Folding
import FeatureText.Editor.Navigation
import FeatureText.Editor.State
import FeatureText.Editor.Typing
import FeatureText.Editor.Undo
import FeatureText.Feature.Hidden
import FeatureText.Feature.Input
import FeatureText.Feature.Key
import FeatureText.Feature.Layout
import FeatureText.Feature.Range
import FeatureText.Feature.Schema
import FeatureText.Json.Basic
import FeatureText.Json.Cause
import FeatureText.Json.Lexeme
import FeatureText.Json.Numeral
import FeatureText.Json.Quoted
import FeatureText.Json.Reader
import FeatureText.Json.Skim
import FeatureText.Json.Writer
import FeatureText.Motion
import FeatureText.Options.Basic
import FeatureText.Options.Reader
import FeatureText.Options.Refused
import FeatureText.Options.Value
import FeatureText.Outline.Basic
import FeatureText.Outline.Collapse
import FeatureText.Outline.Tree
import FeatureText.Proofs.Bracket.Closing
import FeatureText.Proofs.Bracket.Column
import FeatureText.Proofs.Bracket.Extent
import FeatureText.Proofs.Bracket.Literal
import FeatureText.Proofs.Bracket.Nested
import FeatureText.Proofs.Bracket.Pair
import FeatureText.Proofs.Bracket.Placed
import FeatureText.Proofs.Bracket.Word
import FeatureText.Proofs.Digest.Content
import FeatureText.Proofs.Digest.Delimited
import FeatureText.Proofs.Editor.Action
import FeatureText.Proofs.Editor.Collapsing
import FeatureText.Proofs.Editor.Command
import FeatureText.Proofs.Editor.Current
import FeatureText.Proofs.Editor.Debounce
import FeatureText.Proofs.Editor.Detour
import FeatureText.Proofs.Editor.Effect
import FeatureText.Proofs.Editor.Extending
import FeatureText.Proofs.Editor.FeatureList
import FeatureText.Proofs.Editor.InSight
import FeatureText.Proofs.Editor.InlineEdit
import FeatureText.Proofs.Editor.Inside
import FeatureText.Proofs.Editor.KeyList
import FeatureText.Proofs.Editor.Landing
import FeatureText.Proofs.Editor.Numbering
import FeatureText.Proofs.Editor.Outcome
import FeatureText.Proofs.Editor.OwnRange
import FeatureText.Proofs.Editor.Pasting
import FeatureText.Proofs.Editor.Publishing
import FeatureText.Proofs.Editor.Readable
import FeatureText.Proofs.Editor.Reformat
import FeatureText.Proofs.Editor.Repeat
import FeatureText.Proofs.Editor.Run
import FeatureText.Proofs.Editor.SavedFile
import FeatureText.Proofs.Editor.Steady
import FeatureText.Proofs.Editor.Synced
import FeatureText.Proofs.Editor.Turn
import FeatureText.Proofs.Editor.UndoStep
import FeatureText.Proofs.Editor.Visibility
import FeatureText.Proofs.Editor.Write
import FeatureText.Proofs.Feature.Ascending
import FeatureText.Proofs.Feature.Formatted
import FeatureText.Proofs.Feature.Gap
import FeatureText.Proofs.Feature.Grammar
import FeatureText.Proofs.Feature.Hidden
import FeatureText.Proofs.Feature.Input
import FeatureText.Proofs.Feature.Key
import FeatureText.Proofs.Feature.Layout
import FeatureText.Proofs.Feature.Misreading
import FeatureText.Proofs.Feature.Occurrence
import FeatureText.Proofs.Feature.Path
import FeatureText.Proofs.Feature.Range
import FeatureText.Proofs.Feature.Roots
import FeatureText.Proofs.Feature.Rows
import FeatureText.Proofs.Feature.Strings
import FeatureText.Proofs.Feature.Unmatched
import FeatureText.Proofs.Feature.Valid
import FeatureText.Proofs.Json.Condensed
import FeatureText.Proofs.Json.Container
import FeatureText.Proofs.Json.Contents
import FeatureText.Proofs.Json.Deep
import FeatureText.Proofs.Json.Format
import FeatureText.Proofs.Json.Grammar
import FeatureText.Proofs.Json.Machine
import FeatureText.Proofs.Json.Number
import FeatureText.Proofs.Json.Numeral
import FeatureText.Proofs.Json.Parts
import FeatureText.Proofs.Json.Quoted
import FeatureText.Proofs.Json.Spelling
import FeatureText.Proofs.Motion.Inverse
import FeatureText.Proofs.Motion.Progress
import FeatureText.Proofs.Motion.Shown
import FeatureText.Proofs.Outline.Fold
import FeatureText.Proofs.Outline.Formatted
import FeatureText.Proofs.Outline.Hiding
import FeatureText.Proofs.Outline.Identity
import FeatureText.Proofs.Outline.Nesting
import FeatureText.Proofs.Outline.Outermost
import FeatureText.Proofs.Outline.Refold
import FeatureText.Proofs.Outline.Run
import FeatureText.Proofs.Outline.Scan
import FeatureText.Proofs.Text.Anchor
import FeatureText.Proofs.Text.Break
import FeatureText.Proofs.Text.Buffer
import FeatureText.Proofs.Text.Segmentation
import FeatureText.Proofs.Text.Flat
import FeatureText.Proofs.Text.Fragment
import FeatureText.Proofs.Text.Line
import FeatureText.Proofs.Text.Significant
import FeatureText.Proofs.Text.Slice
import FeatureText.Proofs.Time.Grouping
import FeatureText.Proofs.Time.Timeline
import FeatureText.Proofs.View.Boolean
import FeatureText.Proofs.View.Indicator
import FeatureText.Proofs.View.Inline
import FeatureText.Proofs.View.Overwritten
import FeatureText.Proofs.View.Vertical
import FeatureText.Proofs.View.Visible
import FeatureText.Text.Buffer
import FeatureText.Text.Bytes
import FeatureText.Text.Cluster
import FeatureText.Text.Fragment
import FeatureText.Text.Line
import FeatureText.Text.Position
import FeatureText.Text.Segmentation
import FeatureText.Text.Shown
import FeatureText.Text.Significant
import FeatureText.Time.Schedule
import FeatureText.Time.Timeline
import FeatureText.Unicode.Alphabetic
import FeatureText.Unicode.Cell
import FeatureText.Unicode.Class
import FeatureText.Unicode.Cluster
import FeatureText.Unicode.Extend
import FeatureText.Unicode.Mark
import FeatureText.Unicode.Number
import FeatureText.Unicode.Ranges
import FeatureText.Unicode.Unprintable
import FeatureText.Unicode.Width
import FeatureText.View.Inline
import FeatureText.View.Line
import FeatureText.View.NamedColor
import FeatureText.View.Window
