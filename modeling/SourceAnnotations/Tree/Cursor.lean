import SourceAnnotations.Tree.Node

/-!
# Cursors

A cursor is a node at its place in a tree: the node, and around it one frame for each row above it.
A cursor moves to the first child, to the next sibling and up without losing the rest of the tree.
The token before a place is found from the frames alone.
-/

namespace SourceAnnotations

/-- What lies around a node within its parent. -/
structure Frame where
  parent : Row
  /-- The siblings before the node, the nearest first. -/
  earlier : List Node
  /-- The siblings after the node. -/
  later : List Node

/-- A node at its place in a tree. -/
structure Cursor where
  focus : Node
  /-- The frames around the node, the innermost first. -/
  above : List Frame

namespace Cursor

def atRoot (root : Node) : Cursor := ⟨root, []⟩

def row (cursor : Cursor) : Row :=
  cursor.focus.row

def kind (cursor : Cursor) : String :=
  cursor.row.kind

/-! ## Moves -/

def firstChild? (cursor : Cursor) : Option Cursor :=
  match cursor.focus.children with
  | [] => none
  | child :: later => some ⟨child, ⟨cursor.row, [], later⟩ :: cursor.above⟩

def nextSibling? (cursor : Cursor) : Option Cursor :=
  match cursor.above with
  | [] => none
  | frame :: above =>
      match frame.later with
      | [] => none
      | sibling :: later =>
          some ⟨sibling, ⟨frame.parent, cursor.focus :: frame.earlier, later⟩ :: above⟩

/-- The node that a frame and the node within it make. -/
def enclose (focus : Node) (frame : Frame) : Node :=
  .mk frame.parent (frame.earlier.reverse ++ focus :: frame.later)

/-- The children of a node, from a sibling on. -/
def childrenFrom (parent : Row) (above : List Frame) :
    List Node → List Node → List Cursor
  | _, [] => []
  | earlier, child :: later =>
      ⟨child, ⟨parent, earlier, later⟩ :: above⟩ ::
        childrenFrom parent above (child :: earlier) later

def children (cursor : Cursor) : List Cursor :=
  childrenFrom cursor.row cursor.above [] cursor.focus.children

/-- The children that have a name and are no trivia, each at its place. -/
def namedChildren (cursor : Cursor) : List Cursor :=
  cursor.children.filter fun child => child.row.isNamed && !child.focus.isTrivia

def childByField? (cursor : Cursor) (name : String) : Option Cursor :=
  cursor.children.find? fun child => child.focus.hasField name

/-! ## The token before -/

/-- The last token before a place with the given frames. -/
def tokenBefore? : List Frame → Option Node
  | [] => none
  | frame :: above =>
      match frame.earlier.findSome? Node.lastToken? with
      | some token => some token
      | none => tokenBefore? above

/-- The token before the cursor in the order of the text. -/
def previousToken? (cursor : Cursor) : Option Node :=
  tokenBefore? cursor.above

/-! ## The way through a tree -/

/-- The next place after a tree with the given frames: the next sibling of it or of the nearest row
above it that has one. -/
def afterTree? (focus : Node) : List Frame → Option Cursor
  | [] => none
  | frame :: above =>
      match nextSibling? ⟨focus, frame :: above⟩ with
      | some cursor => some cursor
      | none => afterTree? (enclose focus frame) above

/-- The next place that is not below the cursor. -/
def afterFocus? (cursor : Cursor) : Option Cursor :=
  afterTree? cursor.focus cursor.above

/-- The number of rows after a tree with the given frames. -/
def remainingAfter : List Frame → Nat
  | [] => 0
  | frame :: above => Node.sizeOfAll frame.later + remainingAfter above

/-- The number of rows at, below and after a cursor. -/
def remaining (cursor : Cursor) : Nat :=
  cursor.focus.size + remainingAfter cursor.above

theorem size_pos (node : Node) : 0 < node.size := by
  cases node
  simp [Node.size]

theorem remaining_nextSibling {cursor next : Cursor} (moved : cursor.nextSibling? = some next) :
    next.remaining + cursor.focus.size = cursor.remaining := by
  obtain ⟨focus, above⟩ := cursor
  cases above with
  | nil => simp [nextSibling?] at moved
  | cons frame above =>
    obtain ⟨parent, earlier, later⟩ := frame
    cases later with
    | nil => simp [nextSibling?] at moved
    | cons sibling later =>
      simp only [nextSibling?, Option.some.injEq] at moved
      subst moved
      simp only [remaining, remainingAfter, Node.sizeOfAll]
      omega

theorem remaining_afterTree {focus : Node} {above : List Frame} {next : Cursor}
    (moved : afterTree? focus above = some next) :
    next.remaining ≤ remainingAfter above := by
  induction above generalizing focus with
  | nil => simp [afterTree?] at moved
  | cons frame above inductionHypothesis =>
    rw [afterTree?] at moved
    split at moved
    · next sibling found =>
      injection moved with equality
      subst equality
      have counted := remaining_nextSibling found
      simp only [remaining, remainingAfter] at counted ⊢
      omega
    · have bound := inductionHypothesis moved
      rw [remainingAfter]
      omega

theorem remaining_afterFocus {cursor next : Cursor} (moved : cursor.afterFocus? = some next) :
    next.remaining < cursor.remaining := by
  have bound := remaining_afterTree moved
  have positive := size_pos cursor.focus
  simp only [remaining] at bound ⊢
  omega

theorem remaining_firstChild {cursor next : Cursor} (moved : cursor.firstChild? = some next) :
    next.remaining < cursor.remaining := by
  obtain ⟨⟨row, children⟩, above⟩ := cursor
  cases children with
  | nil => simp [firstChild?, Node.children] at moved
  | cons child later =>
    simp only [firstChild?, Node.children, Option.some.injEq] at moved
    subst moved
    simp only [remaining, remainingAfter, Node.size, Node.sizeOfAll]
    omega

end Cursor

end SourceAnnotations
