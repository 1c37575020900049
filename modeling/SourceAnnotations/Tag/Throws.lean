import SourceAnnotations.Cancellation
import SourceAnnotations.Region.Ordered
import SourceAnnotations.Tree.Parsed

/-!
# Tags of thrown exceptions

A place at which a new not-implemented exception is thrown gets a task tag. Thrown statements always
count, thrown expressions when the configuration says so.
-/

namespace SourceAnnotations

def AnnotationConfig.countsThrow (config : AnnotationConfig) (throwing : Node) : Bool :=
  throwing.kind ≠ Kinds.throwExpression || config.tagThrowExpressions

namespace SyntaxTree

/-- The source text of the first argument of an object that is created. -/
def firstArgument? (tree : SyntaxTree) (created : Node) : Option Text := do
  let arguments ← created.childByField? "arguments"
  let argument ← arguments.namedChildren.find? fun child => child.kind = Kinds.argument
  return tree.nodeText argument

/-- The tag of a throw, if it throws a new object of a type that the configuration names. -/
def throwTag? (tree : SyntaxTree) (config : AnnotationConfig) (throwing : Node) : Option Tag := do
  let created ← throwing.namedChildren.head?
  guard (created.kind = Kinds.objectCreation)
  let type ← created.childByField? "type"
  guard (config.isNotImplementedType (tree.nodeText type))
  return .notImplemented ((tree.firstArgument? created).map String.ofList)
    (tree.nodeRegion throwing)

/-- The tags of a parsed text's throws, in the order of their regions. -/
def throwTags (tree : SyntaxTree) (config : AnnotationConfig) (cancellation : Cancellation) :
    Except DocumentError (List Tag) := do
  cancellation.check
  let throws := tree.namedRows [Kinds.throwStatement, Kinds.throwExpression]
  return sortByRegion Tag.region
    ((throws.filter config.countsThrow).filterMap (tree.throwTag? config))

end SyntaxTree

end SourceAnnotations
