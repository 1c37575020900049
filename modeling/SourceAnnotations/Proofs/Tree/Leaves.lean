import Mathlib.Data.List.Flatten
import SourceAnnotations.Proofs.Tree.Places

/-!
# Leaves of a tree

The rows without children are the leaves of a tree, and those that are no trivia are its tokens.  A
place divides the leaves of its tree into those before it, its own and those behind it, so the order
of two places can be told from the leaves before them.  The token before a place is the last token
of the leaves before it.
-/

namespace SourceAnnotations

namespace Node

mutual

/-- The rows without children, in the order of the text. -/
def leaves : Node → List Node
  | mk row [] => [mk row []]
  | mk _ (head :: tail) => leavesOfAll (head :: tail)

def leavesOfAll : List Node → List Node
  | [] => []
  | head :: tail => head.leaves ++ leavesOfAll tail

end

theorem leavesOfAll_eq (nodes : List Node) : leavesOfAll nodes = nodes.flatMap leaves := by
  induction nodes with
  | nil => rfl
  | cons head tail inductionHypothesis =>
      rw [leavesOfAll, List.flatMap_cons, inductionHypothesis]

theorem leaves_of_leaf {node : Node} (leaf : node.children = []) : node.leaves = [node] := by
  obtain ⟨row, children⟩ := node
  obtain rfl : children = [] := leaf
  rfl

theorem leaves_of_parent {node : Node} (parent : node.children ≠ []) :
    node.leaves = node.children.flatMap leaves := by
  obtain ⟨row, children⟩ := node
  cases children with
  | nil => exact absurd rfl parent
  | cons head tail => exact leavesOfAll_eq (head :: tail)

theorem mem_leaves_iff {leaf node : Node} :
    leaf ∈ node.leaves ↔ leaf ∈ node.preorder ∧ leaf.children = [] := by
  induction node with
  | mk row children inductionHypothesis =>
      by_cases childless : children = []
      · subst childless
        rw [leaves_of_leaf rfl, mem_preorder_iff, List.mem_singleton]
        constructor
        · rintro rfl
          exact ⟨.inl rfl, rfl⟩
        · rintro ⟨rfl | ⟨child, none, _⟩, _⟩
          · rfl
          · cases none
      · rw [leaves_of_parent (show (mk row children).children ≠ [] from childless),
          mem_preorder_iff, List.mem_flatMap]
        constructor
        · rintro ⟨child, isChild, within⟩
          obtain ⟨below, leafless⟩ := (inductionHypothesis child isChild).mp within
          exact ⟨.inr ⟨child, isChild, below⟩, leafless⟩
        · rintro ⟨rfl | ⟨child, isChild, below⟩, leafless⟩
          · exact absurd leafless childless
          · exact ⟨child, isChild, (inductionHypothesis child isChild).mpr ⟨below, leafless⟩⟩

/-- The last token is the last leaf that is no trivia. -/
theorem lastToken?_eq (node : Node) :
    node.lastToken? = (node.leaves.filter fun leaf => !leaf.isTrivia).getLast? := by
  have ofAll (nodes : List Node)
      (each : ∀ node ∈ nodes,
        node.lastToken? = (node.leaves.filter fun leaf => !leaf.isTrivia).getLast?) :
      lastTokenOfAll? nodes =
        ((leavesOfAll nodes).filter fun leaf => !leaf.isTrivia).getLast? := by
    induction nodes with
    | nil => rfl
    | cons head tail inductionHypothesis =>
        obtain ⟨here, each⟩ := List.forall_mem_cons.mp each
        rw [lastTokenOfAll?, leavesOfAll, List.filter_append, List.getLast?_append,
          inductionHypothesis each, here]
        cases ((leavesOfAll tail).filter fun leaf => !leaf.isTrivia).getLast? <;> rfl
  induction node with
  | mk row children inductionHypothesis =>
      cases children with
      | nil =>
          rw [lastToken?, leaves]
          by_cases trivia : (mk row []).isTrivia <;> simp [trivia]
      | cons head tail => exact ofAll (head :: tail) inductionHypothesis

/-! ## Nested trees -/

/-- No row is reversed, children lie within their parent, and each ends before the next begins. -/
def IsNested (root : Node) : Prop :=
  ∀ node ∈ root.preorder,
    node.row.startByte ≤ node.row.endByte ∧
      (∀ child ∈ node.children,
        node.row.startByte ≤ child.row.startByte ∧ child.row.endByte ≤ node.row.endByte) ∧
      node.children.Pairwise fun left right => left.row.endByte ≤ right.row.startByte

instance (root : Node) : Decidable root.IsNested :=
  inferInstanceAs (Decidable (∀ node ∈ root.preorder,
    node.row.startByte ≤ node.row.endByte ∧
      (∀ child ∈ node.children,
        node.row.startByte ≤ child.row.startByte ∧ child.row.endByte ≤ node.row.endByte) ∧
      node.children.Pairwise fun left right => left.row.endByte ≤ right.row.startByte))

namespace IsNested

variable {node : Node}

theorem child {child : Node} (nested : node.IsNested) (isChild : child ∈ node.children) :
    child.IsNested :=
  fun _ below => nested _ (mem_preorder_of_child isChild below)

theorem forward {below : Node} (nested : node.IsNested) (isBelow : below ∈ node.preorder) :
    below.row.startByte ≤ below.row.endByte :=
  (nested below isBelow).1

/-- A row that is below another lies within it. -/
theorem within {below : Node} (nested : node.IsNested) (isBelow : below ∈ node.preorder) :
    node.row.startByte ≤ below.row.startByte ∧ below.row.endByte ≤ node.row.endByte := by
  induction node with
  | mk row children inductionHypothesis =>
      rcases mem_preorder_iff.mp isBelow with rfl | ⟨child, isChild, belowChild⟩
      · exact ⟨Nat.le_refl _, Nat.le_refl _⟩
      · have inChild := inductionHypothesis child isChild (nested.child isChild) belowChild
        have childWithin := (nested _ (mem_preorder_self _)).2.1 child isChild
        exact ⟨Nat.le_trans childWithin.1 inChild.1, Nat.le_trans inChild.2 childWithin.2⟩

theorem leaves_pairwise (nested : node.IsNested) :
    node.leaves.Pairwise fun left right => left.row.endByte ≤ right.row.startByte := by
  induction node with
  | mk row children inductionHypothesis =>
      by_cases childless : children = []
      · subst childless
        exact List.pairwise_singleton _ _
      · rw [leaves_of_parent (show (mk row children).children ≠ [] from childless),
          List.pairwise_flatMap]
        refine ⟨fun child isChild => inductionHypothesis child isChild (nested.child isChild), ?_⟩
        refine (nested _ (mem_preorder_self _)).2.2.imp_of_mem ?_
        intro left right isLeft isRight apart leaf inLeft next inRight
        have leftWithin := (nested.child isLeft).within (mem_leaves_iff.mp inLeft).1
        have rightWithin := (nested.child isRight).within (mem_leaves_iff.mp inRight).1
        omega

end IsNested

end Node

namespace Cursor

open Node

/-! ## Leaves before a place -/

/-- The leaves before a place with the given frames, in the order of the text. -/
def leavesBefore : List Frame → List Node
  | [] => []
  | frame :: above => leavesBefore above ++ frame.earlier.reverse.flatMap leaves

/-- The token before a place is the last of the leaves before it that is no trivia. -/
theorem tokenBefore?_eq (above : List Frame) :
    tokenBefore? above =
      ((leavesBefore above).filter fun leaf => !leaf.isTrivia).getLast? := by
  have ofEarlier (earlier : List Node) :
      earlier.findSome? lastToken? =
        ((earlier.reverse.flatMap leaves).filter fun leaf => !leaf.isTrivia).getLast? := by
    induction earlier with
    | nil => rfl
    | cons nearest others inductionHypothesis =>
        rw [List.findSome?_cons, inductionHypothesis, lastToken?_eq, List.reverse_cons,
          List.flatMap_append, List.flatMap_singleton, List.filter_append, List.getLast?_append]
        cases (nearest.leaves.filter fun leaf => !leaf.isTrivia).getLast? <;> rfl
  induction above with
  | nil => rfl
  | cons frame above inductionHypothesis =>
      rw [tokenBefore?, leavesBefore, List.filter_append, List.getLast?_append, ofEarlier,
        inductionHypothesis]
      cases ((frame.earlier.reverse.flatMap leaves).filter fun leaf =>
        !leaf.isTrivia).getLast? <;> rfl

/-- One place and all below it come before another. -/
def Precedes (first second : Cursor) : Prop :=
  leavesBefore first.above ++ first.focus.leaves <+: leavesBefore second.above

/-- One place is another or lies below it. -/
structure Within (outer inner : Cursor) : Prop where
  after : leavesBefore outer.above <+: leavesBefore inner.above
  before :
    leavesBefore inner.above ++ inner.focus.leaves <+:
      leavesBefore outer.above ++ outer.focus.leaves
  below : inner.focus ∈ outer.focus.preorder

theorem Within.refl (cursor : Cursor) : Within cursor cursor where
  after := List.prefix_rfl
  before := List.prefix_rfl
  below := mem_preorder_self cursor.focus

theorem Within.trans {outer middle inner : Cursor} (first : Within outer middle)
    (second : Within middle inner) : Within outer inner where
  after := first.after.trans second.after
  before := second.before.trans first.before
  below := mem_preorder_trans first.below second.below

theorem Precedes.within {first second left right : Cursor} (precedes : Precedes first second)
    (inFirst : Within first left) (inSecond : Within second right) : Precedes left right :=
  (inFirst.before.trans precedes).trans inSecond.after

theorem within_child {cursor child : Cursor} (isChild : child ∈ cursor.children) :
    Within cursor child := by
  obtain ⟨front, back, split, frames⟩ := mem_children_iff.mp isChild
  have parent : cursor.focus.children ≠ [] := by
    rw [split]
    exact List.append_ne_nil_of_right_ne_nil front (List.cons_ne_nil _ _)
  have before :
      leavesBefore child.above = leavesBefore cursor.above ++ front.flatMap leaves := by
    rw [frames, leavesBefore, List.reverse_reverse]
  refine ⟨?_, ?_, ?_⟩
  · rw [before]
    exact List.prefix_append _ _
  · rw [before, leaves_of_parent parent, split, List.flatMap_append, List.flatMap_cons,
      List.append_assoc, List.prefix_append_right_inj, ← List.append_assoc]
    exact List.prefix_append _ _
  · exact mem_preorder_of_child (focus_mem_children isChild) (mem_preorder_self _)

/-- Children come one after the other. -/
theorem children_pairwise (cursor : Cursor) : cursor.children.Pairwise Precedes := by
  have inOrder (parent : Row) (above : List Frame) (earlier children : List Node) :
      (childrenFrom parent above earlier children).Pairwise Precedes := by
    induction children generalizing earlier with
    | nil => exact .nil
    | cons head later inductionHypothesis =>
        refine List.pairwise_cons.mpr ⟨fun other isLater => ?_, inductionHypothesis _⟩
        obtain ⟨front, back, _, frames⟩ := mem_childrenFrom_iff.mp isLater
        rw [Precedes, frames, leavesBefore, leavesBefore]
        simp only [List.reverse_append, List.reverse_reverse, List.reverse_cons,
          List.flatMap_append, List.flatMap_singleton, List.append_assoc]
        exact ⟨front.flatMap leaves, by simp only [List.append_assoc]⟩
  exact inOrder cursor.row cursor.above [] cursor.focus.children

/-- Of two children of a place one comes before the other. -/
theorem eq_or_precedes {cursor left right : Cursor} (isLeft : left ∈ cursor.children)
    (isRight : right ∈ cursor.children) :
    left = right ∨ Precedes left right ∨ Precedes right left := by
  refine List.Pairwise.forall_of_forall_of_flip (l := cursor.children)
    (R := fun left right => left = right ∨ Precedes left right ∨ Precedes right left)
    ?_ ?_ ?_ isLeft isRight
  · exact fun _ _ => .inl rfl
  · exact cursor.children_pairwise.imp fun before => .inr (.inl before)
  · exact cursor.children_pairwise.imp fun before => .inr (.inr before)

/-! ## Two places of a tree -/

section

variable {isClosed : Cursor → Bool}

theorem within_of_mem_places {node : Node} {above : List Frame} {place : Cursor}
    (found : place ∈ places isClosed node above) : Within ⟨node, above⟩ place :=
  forall_mem_places (Within.refl _) (fun _ _ inside isChild => inside.trans (within_child isChild))
    place found

/-- Of two places the later comes behind the earlier or is in a child of it. -/
theorem places_pairwise (node : Node) (above : List Frame) :
    (places isClosed node above).Pairwise fun first second =>
      Precedes first second ∨ ∃ child ∈ first.children, Within child second := by
  induction node generalizing above with
  | mk row children inductionHypothesis =>
      rw [places_eq isClosed ⟨.mk row children, above⟩]
      refine List.pairwise_cons.mpr ⟨fun place below => ?_, ?_⟩
      · split at below
        · cases below
        · obtain ⟨child, isChild, found⟩ := List.mem_flatMap.mp below
          exact .inr ⟨child, isChild, within_of_mem_places found⟩
      · split
        · exact .nil
        · refine List.pairwise_flatMap.mpr ⟨fun child isChild => ?_, ?_⟩
          · exact inductionHypothesis child.focus (focus_mem_children isChild) child.above
          · refine (children_pairwise _).imp ?_
            intro left right precedes first inLeft second inRight
            exact .inl
              (precedes.within (within_of_mem_places inLeft) (within_of_mem_places inRight))

end

end Cursor

end SourceAnnotations
