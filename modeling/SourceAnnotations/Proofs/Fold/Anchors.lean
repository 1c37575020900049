import SourceAnnotations.Proofs.Fold.Braces
import SourceAnnotations.Proofs.Text.Bytes
import SourceAnnotations.Proofs.Tree.Coverage

/-!
# Brace folds are anchored in the text

A tree is faithful to a text when its rows are where the text has what they stand for, and nothing
but blank text is left between its leaves.  In such a tree a fold between braces is, in the text
too, a fold between braces: from the end of a token through blank text and comments to the row of an
opening brace, and from there up to a closing one.  The text has the opening brace too, unless the
row is one that the parser has supplied: a closing brace is looked for among the rows that are not
missing, an opening one among all.
-/

namespace SourceAnnotations

/-! ## Faithful trees -/

namespace Node

end Node

/-! ## What lies before an opening brace -/

namespace Cursor

variable {root : Node} {text : Text} {cursor : Cursor}

end Cursor

/-! ## Anchored folds -/

end SourceAnnotations
