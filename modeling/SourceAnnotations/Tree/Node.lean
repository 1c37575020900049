import SourceAnnotations.Tree.Kinds

/-!
# Syntax trees

A syntax tree is made of rows. A row has a kind, flags, a range of bytes of the text and, when its
parent knows it by a field name, that name. A node is a row with its children, in the order of the
text. Comments may stand anywhere among the children; they and the empty tokens that a parser
supplies for missing ones are trivia, which the walkers pass over.
-/

namespace SourceAnnotations

structure Row where
  kind : String
  isNamed : Bool
  /-- Whether the parser supplied the row where the text has none. -/
  isMissing : Bool
  /-- Whether the row holds text that fits no rule. -/
  isError : Bool
  /-- Whether the row or one below it is missing or an error. -/
  hasError : Bool
  startByte : Nat
  endByte : Nat
  /-- The name by which the parent knows the row. -/
  field : Option String
deriving DecidableEq, Repr, Inhabited

inductive Node
  | mk (row : Row) (children : List Node)
deriving Inhabited, Repr

namespace Node

def row : Node → Row
  | mk row _ => row

/-- The children of a node, tokens without a name included. -/
def children : Node → List Node
  | mk _ children => children

def kind (node : Node) : String :=
  node.row.kind

mutual

def size : Node → Nat
  | mk _ children => sizeOfAll children + 1

def sizeOfAll : List Node → Nat
  | [] => 0
  | head :: tail => head.size + sizeOfAll tail

end

mutual

/-- The node and all nodes below it, in the order of the text. -/
def preorder : Node → List Node
  | mk row children => mk row children :: preorderOfAll children

def preorderOfAll : List Node → List Node
  | [] => []
  | head :: tail => head.preorder ++ preorderOfAll tail

end

/-! ## Children -/

/-- Whether the node is a comment or an empty token that the parser supplied. -/
def isTrivia (node : Node) : Bool :=
  node.kind = Kinds.comment || (node.row.isMissing && node.row.endByte ≤ node.row.startByte)

/-- The children that have a name and are no trivia. -/
def namedChildren (node : Node) : List Node :=
  node.children.filter fun child => child.row.isNamed && !child.isTrivia

def hasField (name : String) (node : Node) : Bool :=
  node.row.field = some name

def childByField? (node : Node) (name : String) : Option Node :=
  node.children.find? (hasField name)

/-! ## Tokens -/

mutual

/-- The last token of a tree: its last row without children that is no trivia. -/
def lastToken? : Node → Option Node
  | mk row [] => if isTrivia (mk row []) then none else some (mk row [])
  | mk _ (head :: tail) => lastTokenOfAll? (head :: tail)

/-- The last token of several trees. -/
def lastTokenOfAll? : List Node → Option Node
  | [] => none
  | head :: tail =>
      match lastTokenOfAll? tail with
      | some token => some token
      | none => head.lastToken?

end

/-! ## Trees from rows -/

/-- The trees of rows that are given in the order of the text with their depths: each row is the
parent of the trees that follow it one level deeper. -/
def forest : List (Nat × Row) → List (Nat × Node)
  | [] => []
  | (depth, row) :: rest =>
      let trees := forest rest
      let isBelow := fun (tree : Nat × Node) => tree.1 = depth + 1
      (depth, mk row ((trees.takeWhile isBelow).map Prod.snd)) :: trees.dropWhile isBelow

/-- The tree of rows that are given in the order of the text with their depths, the root having
depth zero. -/
def ofRows? (rows : List (Nat × Row)) : Option Node :=
  match forest rows with
  | [(0, root)] => some root
  | _ => none

end Node

end SourceAnnotations
