import SourceAnnotations.Proofs.Tree.Rows
import SourceAnnotations.Tree.Walk

/-!
# Walks by recursion

A walk moves a cursor through a tree.  A scan visits the same rows in the same order, but by
recursion over the tree, which is what a proof about a walk follows.  No move leaves the tree: what
the frames make around the node stays the same.
-/

namespace SourceAnnotations

namespace Cursor

variable {σ : Type} (visit : σ → Cursor → σ × Visit)

mutual

/-- The state after a node within frames has been visited, and what is to be visited below it. -/
def scan (state : σ) : Node → List Frame → σ
  | .mk row children, above =>
      match visit state ⟨.mk row children, above⟩ with
      | (next, .skip) => next
      | (next, .descend) => scanAll row above next [] children

/-- The state after the children of a row have been visited, of which some come earlier. -/
def scanAll (parent : Row) (above : List Frame) (state : σ) : List Node → List Node → σ
  | _, [] => state
  | earlier, child :: later =>
      scanAll parent above (scan state child (⟨parent, earlier, later⟩ :: above))
        (child :: earlier) later

end

theorem scan_of_leaf {node : Node} (state : σ) (above : List Frame) (leaf : node.children = []) :
    scan visit state node above = (visit state ⟨node, above⟩).1 := by
  obtain ⟨row, children⟩ := node
  obtain rfl : children = [] := leaf
  rw [scan]
  rcases visit state ⟨.mk row [], above⟩ with ⟨next, wanted⟩
  cases wanted with
  | skip => rfl
  | descend => rfl

/-- The state after a walk has gone on at a place, if there is one. -/
def walkOn (state : σ) : Option Cursor → σ
  | none => state
  | some place => place.walk visit state

theorem walk_eq_walkOn (state : σ) (cursor : Cursor) :
    cursor.walk visit state =
      walkOn visit (visit state cursor).1 (cursor.step? (visit state cursor).2) := by
  rw [walk_eq]
  cases cursor.step? (visit state cursor).2 <;> rfl

theorem firstChild?_eq (cursor : Cursor) : cursor.firstChild? = cursor.children.head? := by
  obtain ⟨⟨row, children⟩, above⟩ := cursor
  cases children <;> rfl

/-- Behind a child comes its next sibling, or what comes behind the parent. -/
theorem afterTree?_cons (child : Node) (parent : Row) (earlier later : List Node)
    (above : List Frame) :
    afterTree? child (⟨parent, earlier, later⟩ :: above) =
      (childrenFrom parent above (child :: earlier) later).head?.or
        (afterTree? (enclose child ⟨parent, earlier, later⟩) above) := by
  cases later <;> rfl

mutual

/-- A walk that comes to a node scans it and goes on behind it. -/
theorem walk_eq_scan (state : σ) : (node : Node) → (above : List Frame) →
    walk visit state ⟨node, above⟩ =
      walkOn visit (scan visit state node above) (afterTree? node above)
  | .mk row children, above => by
      rw [walk_eq_walkOn, scan]
      rcases visit state ⟨.mk row children, above⟩ with ⟨next, wanted⟩
      cases wanted with
      | skip => rfl
      | descend =>
          rw [step?, firstChild?_eq]
          exact walkOn_eq_scanAll row above next [] children

theorem walkOn_eq_scanAll (parent : Row) (above : List Frame) (state : σ) (earlier : List Node) :
    (children : List Node) →
      walkOn visit state
          ((childrenFrom parent above earlier children).head?.or
            (afterTree? (.mk parent (earlier.reverse ++ children)) above)) =
        walkOn visit (scanAll visit parent above state earlier children)
          (afterTree? (.mk parent (earlier.reverse ++ children)) above)
  | [] => rfl
  | child :: later => by
      have behind := walkOn_eq_scanAll parent above
        (scan visit state child (⟨parent, earlier, later⟩ :: above)) (child :: earlier) later
      rw [List.reverse_cons, List.append_assoc, List.singleton_append] at behind
      rw [scanAll, ← behind]
      exact (walk_eq_scan state child _).trans (by rw [afterTree?_cons, enclose])

end

/-- What every visit keeps holds of the state in which a walk ends. -/
theorem walk_keeps (P : σ → Prop) (kept : ∀ state cursor, P state → P (visit state cursor).1)
    {state : σ} (holds : P state) (cursor : Cursor) : P (walk visit state cursor) := by
  induction state, cursor using walk.induct visit with
  | case1 state cursor next wanted visited last =>
      rw [walk_eq, visited, last]
      have keeps := kept state cursor holds
      rwa [visited] at keeps
  | case2 state cursor next wanted visited place moved inductionHypothesis =>
      rw [walk_eq, visited, moved]
      have keeps := kept state cursor holds
      rw [visited] at keeps
      exact inductionHypothesis keeps

theorem walk_atRoot (state : σ) (root : Node) :
    walk visit state (.atRoot root) = scan visit state root [] :=
  walk_eq_scan visit state root []

/-! ## The tree of a cursor -/

/-- The whole tree that a cursor is in. -/
def whole (cursor : Cursor) : Node :=
  cursor.above.foldl enclose cursor.focus

variable {cursor next : Cursor}

theorem whole_firstChild (moved : cursor.firstChild? = some next) : next.whole = cursor.whole := by
  obtain ⟨⟨row, children⟩, above⟩ := cursor
  cases children with
  | nil => cases moved
  | cons child later =>
    cases moved
    rfl

theorem whole_nextSibling (moved : cursor.nextSibling? = some next) :
    next.whole = cursor.whole := by
  obtain ⟨focus, above⟩ := cursor
  cases above with
  | nil => cases moved
  | cons frame above =>
    obtain ⟨parent, earlier, later⟩ := frame
    cases later with
    | nil => cases moved
    | cons sibling later =>
      cases moved
      simp [whole, enclose]

theorem whole_afterTree {focus : Node} {above : List Frame}
    (moved : afterTree? focus above = some next) : next.whole = whole ⟨focus, above⟩ := by
  induction above generalizing focus with
  | nil => cases moved
  | cons frame above inductionHypothesis =>
    rw [afterTree?] at moved
    split at moved
    · next sibling found =>
      cases moved
      exact whole_nextSibling found
    · exact inductionHypothesis moved

/-- A walk stays in its tree. -/
theorem whole_step {wanted : Visit} (moved : cursor.step? wanted = some next) :
    next.whole = cursor.whole := by
  cases wanted with
  | skip => exact whole_afterTree moved
  | descend =>
    rcases Option.or_eq_some_iff.mp moved with down | ⟨_, after⟩
    · exact whole_firstChild down
    · exact whole_afterTree after

end Cursor

end SourceAnnotations
