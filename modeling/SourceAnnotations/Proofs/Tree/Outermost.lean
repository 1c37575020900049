import Mathlib.Data.List.Basic
import SourceAnnotations.Proofs.Tree.Leaves

/-!
# Outermost rows

The outermost of the rows that are wanted are those with no wanted row above them.  A walk that goes
on below no wanted row meets these and no other wanted rows.  It may pass over more of the tree, as
long as no wanted row is there.
-/

namespace SourceAnnotations

namespace Cursor

/-- Whether a row is wanted and none above it is. -/
def isOutermost (wanted : Row → Bool) (cursor : Cursor) : Bool :=
  wanted cursor.row && cursor.above.all fun frame => !wanted frame.parent

/-- The outermost wanted rows at and below a place, in the order of the text. -/
def outermost (wanted : Row → Bool) (cursor : Cursor) : List Cursor :=
  (places (fun _ => false) cursor.focus cursor.above).filter (isOutermost wanted)

/-- The places of a tree are those of its rows in the order of the text. -/
theorem map_focus_places (node : Node) (above : List Frame) :
    (places (fun _ => false) node above).map focus = node.preorder := by
  have ofAll (parent : Row) (above : List Frame) (earlier children : List Node)
      (each : ∀ child ∈ children, ∀ above,
        (places (fun _ => false) child above).map focus = child.preorder) :
      (placesOfAll (fun _ => false) parent above earlier children).map focus =
        Node.preorderOfAll children := by
    induction children generalizing earlier with
    | nil => rfl
    | cons child later inductionHypothesis =>
        obtain ⟨here, each⟩ := List.forall_mem_cons.mp each
        rw [placesOfAll, List.map_append, here, inductionHypothesis _ each, Node.preorderOfAll]
  induction node generalizing above with
  | mk row children inductionHypothesis =>
      rw [places, Node.preorder, List.map_cons]
      exact congrArg (_ :: ·) (ofAll row above [] children inductionHypothesis)

section

variable {isClosed : Cursor → Bool} {wanted : Row → Bool} {cursor : Cursor}

theorem isOutermost_eq (outside : ∀ frame ∈ cursor.above, wanted frame.parent = false) :
    cursor.isOutermost wanted = wanted cursor.row := by
  have noneAbove : (cursor.above.all fun frame => !wanted frame.parent) = true :=
    List.all_eq_true.mpr fun frame isFrame => by
      rw [outside frame isFrame]
      rfl
  rw [isOutermost, noneAbove, Bool.and_true]

/-- No row below a wanted one is outermost. -/
theorem outermost_eq_nil_of_above {frame : Frame} (isFrame : frame ∈ cursor.above)
    (isWanted : wanted frame.parent) : cursor.outermost wanted = [] := by
  refine List.filter_eq_nil_iff.mpr fun place found isOutermost => ?_
  have stillAbove : frame ∈ place.above := by
    refine forall_mem_places (motive := fun place => frame ∈ place.above) isFrame
      (fun cursor child isAbove isChild => ?_) place found
    obtain ⟨_, _, _, frames⟩ := mem_children_iff.mp isChild
    rw [frames]
    exact List.mem_cons_of_mem _ isAbove
  rw [Cursor.isOutermost, Bool.and_eq_true, List.all_eq_true] at isOutermost
  have unwanted := isOutermost.2 frame stillAbove
  rw [isWanted] at unwanted
  cases unwanted

theorem outermost_eq_nil_of_clean
    (clean : ∀ below ∈ cursor.focus.preorder, wanted below.row = false) :
    cursor.outermost wanted = [] := by
  refine List.filter_eq_nil_iff.mpr fun place found isOutermost => ?_
  have unwanted : wanted place.row = false :=
    clean place.focus (within_of_mem_places found).below
  rw [Cursor.isOutermost, unwanted] at isOutermost
  cases isOutermost

/-- A wanted row is the only outermost one from its place on. -/
theorem outermost_of_wanted (outside : ∀ frame ∈ cursor.above, wanted frame.parent = false)
    (isWanted : wanted cursor.row) : cursor.outermost wanted = [cursor] := by
  have below : cursor.children.flatMap (outermost wanted) = [] := by
    refine List.flatMap_eq_nil_iff.mpr fun child isChild => ?_
    obtain ⟨_, _, _, frames⟩ := mem_children_iff.mp isChild
    exact outermost_eq_nil_of_above (frames ▸ List.mem_cons_self) isWanted
  rw [outermost, places_eq, if_neg Bool.false_ne_true, List.filter_cons, isOutermost_eq outside,
    if_pos isWanted, List.filter_flatMap]
  exact congrArg (cursor :: ·) below

/-- The outermost rows from an unwanted row on are those of its children. -/
theorem outermost_of_unwanted (unwanted : wanted cursor.row = false) :
    cursor.outermost wanted = cursor.children.flatMap (outermost wanted) := by
  rw [outermost, places_eq, if_neg Bool.false_ne_true, List.filter_cons, isOutermost, unwanted,
    Bool.false_and, if_neg Bool.false_ne_true, List.filter_flatMap]
  rfl

/-- There is an outermost row wherever there is a wanted one. -/
theorem outermost_eq_nil_iff {node : Node} {above : List Frame}
    (outside : ∀ frame ∈ above, wanted frame.parent = false) :
    outermost wanted ⟨node, above⟩ = [] ↔ ∀ below ∈ node.preorder, wanted below.row = false := by
  refine ⟨fun none => ?_, fun clean => outermost_eq_nil_of_clean clean⟩
  induction node generalizing above with
  | mk row children inductionHypothesis =>
      by_cases isWanted : wanted (Cursor.mk (.mk row children) above).row
      · rw [outermost_of_wanted outside isWanted] at none
        cases none
      · have unwanted := Bool.eq_false_iff.mpr isWanted
        rw [outermost_of_unwanted unwanted, List.flatMap_eq_nil_iff] at none
        intro below isBelow
        rcases Node.mem_preorder_iff.mp isBelow with rfl | ⟨child, isChild, belowChild⟩
        · exact unwanted
        · obtain ⟨front, back, split⟩ := List.append_of_mem isChild
          have isPlace : ⟨child, ⟨row, front.reverse, back⟩ :: above⟩ ∈
              (Cursor.mk (.mk row children) above).children :=
            mem_children_iff.mpr ⟨front, back, split, rfl⟩
          exact inductionHypothesis child isChild
            (List.forall_mem_cons.mpr ⟨unwanted, outside⟩) (none _ isPlace) below belowChild

/-- In a nested tree each outermost row ends before the next begins. -/
theorem pairwise_outermost {node : Node} {above : List Frame} (nested : node.IsNested)
    (outside : ∀ frame ∈ above, wanted frame.parent = false) :
    (outermost wanted ⟨node, above⟩).Pairwise fun left right =>
      left.row.endByte ≤ right.row.startByte := by
  induction node generalizing above with
  | mk row children inductionHypothesis =>
      by_cases isWanted : wanted (Cursor.mk (.mk row children) above).row
      · rw [outermost_of_wanted outside isWanted]
        exact List.pairwise_singleton _ _
      · have unwanted := Bool.eq_false_iff.mpr isWanted
        rw [outermost_of_unwanted unwanted]
        refine List.pairwise_flatMap.mpr ⟨fun child isChild => ?_, ?_⟩
        · have isBelow := focus_mem_children isChild
          obtain ⟨_, _, _, frames⟩ := mem_children_iff.mp isChild
          refine inductionHypothesis child.focus isBelow (nested.child isBelow) ?_
          rw [frames]
          exact List.forall_mem_cons.mpr ⟨unwanted, outside⟩
        · have apart := (nested _ (Node.mem_preorder_self _)).2.2
          rw [← map_focus_children ⟨.mk row children, above⟩, List.pairwise_map] at apart
          refine apart.imp_of_mem fun isLeft isRight ordered place inLeft other inRight => ?_
          have leftWithin := (nested.child (focus_mem_children isLeft)).within
            (within_of_mem_places (List.mem_of_mem_filter inLeft)).below
          have rightWithin := (nested.child (focus_mem_children isRight)).within
            (within_of_mem_places (List.mem_of_mem_filter inRight)).below
          exact Nat.le_trans leftWithin.2 (Nat.le_trans ordered rightWithin.1)

/-- The wanted rows that are not below closed ones are the outermost, when every wanted row is
closed and no wanted row is below another closed one. -/
theorem filter_places (stops : ∀ cursor, wanted cursor.row → isClosed cursor) {node : Node}
    {above : List Frame}
    (clean : ∀ cursor, cursor.focus ∈ node.preorder → isClosed cursor → wanted cursor.row = false →
      ∀ below ∈ cursor.focus.preorder, wanted below.row = false)
    (outside : ∀ frame ∈ above, wanted frame.parent = false) :
    (places isClosed node above).filter (fun place => wanted place.row) =
      outermost wanted ⟨node, above⟩ := by
  induction node generalizing above with
  | mk row children inductionHypothesis =>
      rw [places_eq isClosed ⟨.mk row children, above⟩, List.filter_cons]
      by_cases isWanted : wanted (Cursor.mk (.mk row children) above).row
      · rw [if_pos isWanted, if_pos (stops _ isWanted), outermost_of_wanted outside isWanted,
          List.filter_nil]
      · have unwanted := Bool.eq_false_iff.mpr isWanted
        rw [if_neg isWanted]
        by_cases closed : isClosed ⟨.mk row children, above⟩
        · rw [if_pos closed, List.filter_nil, outermost_eq_nil_of_clean]
          exact clean _ (Node.mem_preorder_self _) closed unwanted
        · rw [if_neg closed, List.filter_flatMap, outermost_of_unwanted unwanted]
          refine List.flatMap_congr fun child isChild => ?_
          have isBelow := focus_mem_children isChild
          obtain ⟨_, _, _, frames⟩ := mem_children_iff.mp isChild
          refine inductionHypothesis child.focus isBelow
            (fun cursor below => clean cursor (Node.mem_preorder_of_child isBelow below)) ?_
          rw [frames]
          exact List.forall_mem_cons.mpr ⟨unwanted, outside⟩

end

end Cursor

/-- The rows that are wanted and lie below no wanted row, in the order of the text. -/
def Node.outermost (wanted : Row → Bool) (root : Node) : List Node :=
  ((Cursor.atRoot root).outermost wanted).map Cursor.focus

theorem Node.outermost_sublist_preorder (wanted : Row → Bool) (root : Node) :
    (root.outermost wanted).Sublist root.preorder := by
  rw [← Cursor.map_focus_places root []]
  exact List.filter_sublist.map Cursor.focus

end SourceAnnotations
