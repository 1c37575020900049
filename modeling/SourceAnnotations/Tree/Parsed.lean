import SourceAnnotations.LineIndex
import SourceAnnotations.Tree.Node

/-!
# Parsed texts

A text with the tree that a parser has made of it and the index of its lines. The text and the index
are kept side by side, because an edited text brings its index along.
-/

namespace SourceAnnotations

structure SyntaxTree where
  text : Text
  index : LineIndex
  root : Node

namespace SyntaxTree

def ofText (text : Text) (root : Node) : SyntaxTree :=
  ⟨text, .ofText text, root⟩

/-- Whether the tree has an error or a missing row. -/
def hasErrors (tree : SyntaxTree) : Bool :=
  tree.root.row.hasError

/-- The text of a node; a range that is no range of the text has none. -/
def nodeText (tree : SyntaxTree) (node : Node) : Text :=
  (tree.text.slice? node.row.startByte node.row.endByte).getD []

def nodeRegion (tree : SyntaxTree) (node : Node) : Region :=
  tree.index.region node.row.startByte node.row.endByte

/-- The nodes of the given kinds that have a name, in the order of the text. -/
def namedRows (tree : SyntaxTree) (kinds : List String) : List Node :=
  tree.root.preorder.filter fun node => node.row.isNamed && kinds.contains node.kind

def describe (tree : SyntaxTree) : String :=
  "SyntaxTree \x7b bytes: " ++ toString tree.text.byteSize ++
    ", lines: " ++ toString tree.index.lineCount ++
    ", has_errors: " ++ toString tree.hasErrors ++ " \x7d"

end SyntaxTree

end SourceAnnotations
