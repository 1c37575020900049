import SourceAnnotations.Cache.Program
import SourceAnnotations.Change
import SourceAnnotations.Document.Session
import SourceAnnotations.Forms.Annotations
import SourceAnnotations.Proofs.Bounds.Annotations
import SourceAnnotations.Proofs.Bounds.Comments
import SourceAnnotations.Proofs.Bounds.Folds
import SourceAnnotations.Proofs.Bounds.Offsets
import SourceAnnotations.Proofs.Cache.Slot
import SourceAnnotations.Proofs.Cache.WriteOnce
import SourceAnnotations.Proofs.Change.Edits
import SourceAnnotations.Proofs.Change.Inverse
import SourceAnnotations.Proofs.Change.Reparse
import SourceAnnotations.Proofs.Comment.Forms
import SourceAnnotations.Proofs.Comment.LineStart
import SourceAnnotations.Proofs.Comment.Rows
import SourceAnnotations.Proofs.Comment.Transparent
import SourceAnnotations.Proofs.Diagnostic.Recovery
import SourceAnnotations.Proofs.Document.Cancelled
import SourceAnnotations.Proofs.Document.Depth
import SourceAnnotations.Proofs.Document.Errors
import SourceAnnotations.Proofs.Document.Failure
import SourceAnnotations.Proofs.Document.History
import SourceAnnotations.Proofs.Document.Instances
import SourceAnnotations.Proofs.Document.Lasting
import SourceAnnotations.Proofs.Document.Listing
import SourceAnnotations.Proofs.Document.Order
import SourceAnnotations.Proofs.Document.Transparency
import SourceAnnotations.Proofs.Region.Annotations
import SourceAnnotations.Proofs.Region.Cover
import SourceAnnotations.Proofs.Region.Order
import SourceAnnotations.Proofs.Region.Span
import SourceAnnotations.Proofs.Tag.Throws
import SourceAnnotations.Proofs.Tag.Words
import SourceAnnotations.Proofs.Text.Bytes
import SourceAnnotations.Proofs.Text.Coordinates
import SourceAnnotations.Proofs.Text.Insertions
import SourceAnnotations.Proofs.Text.Lines
import SourceAnnotations.Proofs.Text.Locations
import SourceAnnotations.Proofs.Tree.Comments
import SourceAnnotations.Proofs.Tree.Coverage
import SourceAnnotations.Proofs.Tree.Rows
import SourceAnnotations.Proofs.Tree.Walk
import SourceAnnotations.Proofs.Tree.Leaves
import SourceAnnotations.Proofs.Tree.Outermost
import SourceAnnotations.Proofs.Tree.Paths
import SourceAnnotations.Proofs.Tree.Places
import SourceAnnotations.Proofs.Tree.Tokens
import SourceAnnotations.Proofs.Tree.Visits
import SourceAnnotations.Proofs.Fold.Chains
import SourceAnnotations.Proofs.Fold.Imports
import SourceAnnotations.Proofs.Fold.Normal
import SourceAnnotations.Proofs.Fold.Pairs
import SourceAnnotations.Proofs.Fold.Producers
import SourceAnnotations.Proofs.Fold.Braces
import SourceAnnotations.Proofs.Fold.Crossing
import SourceAnnotations.Proofs.Fold.Anchors
import SourceAnnotations.Proofs.Fold.Kinds
import SourceAnnotations.Proofs.Fold.FirstRuns
import SourceAnnotations.Proofs.Fold.Heights
import SourceAnnotations.Proofs.Fold.Toggles
import SourceAnnotations.Proofs.Fold.UserRegions
import SourceAnnotations.Proofs.Json.Document
import SourceAnnotations.Proofs.Json.Lexing
import SourceAnnotations.Proofs.Json.Assembly
import SourceAnnotations.Proofs.Json.Compact
import SourceAnnotations.Proofs.Json.Forms
import SourceAnnotations.Proofs.Json.Partial
import SourceAnnotations.Proofs.Json.Records
import SourceAnnotations.Proofs.Json.RoundTrip
