import Mathlib.Data.List.Basic
import SourceAnnotations.Proofs.Tree.Places

/-!
# Paths to places

The path to a place says which child to take at each row from the root down.  The rows of a tree in
the order of the text are in the lexicographic order of their paths, so no place comes twice.  The
places above a place are those that its parents make, one after the other, and each of them comes
before it.
-/

namespace SourceAnnotations

namespace Cursor

/-- The place and those of all rows below it, in the order of the text. -/
def placesFrom (cursor : Cursor) : List Cursor :=
  places (fun _ => false) cursor.focus cursor.above

/-- The places of a tree, one for each of its rows, in the order of the text. -/
def placesIn (root : Node) : List Cursor :=
  placesFrom (.atRoot root)

/-- The way down from the root: the number of siblings to pass over at each row. -/
def path (cursor : Cursor) : List Nat :=
  (cursor.above.map fun frame => frame.earlier.length).reverse

/-- One place comes before another in the order of the text. -/
def IsBefore (first second : Cursor) : Prop :=
  first.path < second.path

/-- The places that the frames around a node make, the innermost first. -/
def enclosing : Node → List Frame → List Cursor
  | _, [] => []
  | focus, frame :: above =>
      ⟨enclose focus frame, above⟩ :: enclosing (enclose focus frame) above

/-- The places above a place, its parent first. -/
def ancestors (cursor : Cursor) : List Cursor :=
  enclosing cursor.focus cursor.above

variable {isClosed : Cursor → Bool} {cursor child : Cursor}

theorem placesFrom_eq (cursor : Cursor) :
    cursor.placesFrom = cursor :: cursor.children.flatMap placesFrom := by
  rw [placesFrom, places_eq, if_neg Bool.false_ne_true]
  rfl

/-! ## The order of places -/

namespace IsBefore

variable {first second third : Cursor}

theorem trans (before : first.IsBefore second) (before' : second.IsBefore third) :
    first.IsBefore third :=
  List.lt_trans before before'

theorem irrefl (cursor : Cursor) : ¬ cursor.IsBefore cursor :=
  List.lt_irrefl cursor.path

end IsBefore

/-- A child stands behind the siblings before it. -/
theorem exists_path_of_mem_children (isChild : child ∈ cursor.children) :
    ∃ position, child.path = cursor.path ++ [position] := by
  obtain ⟨front, back, _, frames⟩ := mem_children_iff.mp isChild
  exact ⟨front.length, by simp [path, frames]⟩

theorem path_isPrefix_of_mem_places {node : Node} {above : List Frame} :
    ∀ place ∈ places isClosed node above, (Cursor.mk node above).path <+: place.path := by
  apply forall_mem_places
  · exact List.prefix_rfl
  · intro cursor child isPrefix isChild
    obtain ⟨position, extended⟩ := exists_path_of_mem_children isChild
    rw [extended]
    exact isPrefix.trans (List.prefix_append _ _)

/-- What lies in a child comes behind the parent. -/
theorem isBefore_of_mem_child (isChild : child ∈ cursor.children) {place : Cursor}
    (below : place ∈ places isClosed child.focus child.above) : cursor.IsBefore place := by
  obtain ⟨position, extended⟩ := exists_path_of_mem_children isChild
  obtain ⟨rest, whole⟩ := path_isPrefix_of_mem_places place below
  have longer : cursor.path ++ [] < cursor.path ++ ([position] ++ rest) :=
    List.append_left_lt (List.nil_lt_cons position rest)
  rw [IsBefore, ← whole, extended]
  simpa using longer

/-- Whatever lies in one child comes before whatever lies in a later one. -/
theorem children_pairwise_isBefore (cursor : Cursor) :
    cursor.children.Pairwise fun left right =>
      ∀ first ∈ places isClosed left.focus left.above,
        ∀ second ∈ places isClosed right.focus right.above, first.IsBefore second := by
  have inOrder (parent : Row) (above : List Frame) (earlier children : List Node) :
      (childrenFrom parent above earlier children).Pairwise fun left right =>
        ∃ start low high,
          low < high ∧ left.path = start ++ [low] ∧ right.path = start ++ [high] := by
    induction children generalizing earlier with
    | nil => exact .nil
    | cons head later inductionHypothesis =>
        refine List.pairwise_cons.mpr ⟨fun other isLater => ?_, inductionHypothesis _⟩
        obtain ⟨front, back, _, frames⟩ := mem_childrenFrom_iff.mp isLater
        refine ⟨path ⟨head, above⟩, earlier.length, (front.reverse ++ head :: earlier).length,
          ?_, ?_, ?_⟩
        · simp
          omega
        · simp [path]
        · simp [path, frames]
  refine (inOrder cursor.row cursor.above [] cursor.focus.children).imp ?_
  rintro left right ⟨start, low, high, ordered, atLow, atHigh⟩ first inLeft second inRight
  obtain ⟨rest, whole⟩ := path_isPrefix_of_mem_places first inLeft
  obtain ⟨rest', whole'⟩ := path_isPrefix_of_mem_places second inRight
  have smaller : start ++ (low :: rest) < start ++ (high :: rest') :=
    List.append_left_lt (List.cons_lt_cons_iff.mpr (.inl ordered))
  rw [IsBefore, ← whole, ← whole', atLow, atHigh]
  simpa using smaller

/-- The places from a place on are in the order of the text. -/
theorem places_pairwise_isBefore (node : Node) (above : List Frame) :
    (places isClosed node above).Pairwise IsBefore := by
  induction node generalizing above with
  | mk row children inductionHypothesis =>
      rw [places_eq isClosed ⟨.mk row children, above⟩]
      by_cases closed : isClosed ⟨.mk row children, above⟩
      · rw [if_pos closed]
        exact List.pairwise_singleton _ _
      · rw [if_neg closed]
        refine List.pairwise_cons.mpr ⟨fun place below => ?_, List.pairwise_flatMap.mpr ⟨?_, ?_⟩⟩
        · obtain ⟨child, isChild, within⟩ := List.mem_flatMap.mp below
          exact isBefore_of_mem_child isChild within
        · intro child isChild
          exact inductionHypothesis child.focus (focus_mem_children isChild) child.above
        · exact children_pairwise_isBefore _

theorem nodup_places (node : Node) (above : List Frame) : (places isClosed node above).Nodup := by
  refine (places_pairwise_isBefore node above).imp ?_
  rintro first _ before rfl
  exact IsBefore.irrefl first before

/-! ## The places above a place -/

/-- Above a child there are its parent and what is above the parent. -/
theorem ancestors_of_mem_children (isChild : child ∈ cursor.children) :
    child.ancestors = cursor :: cursor.ancestors := by
  obtain ⟨front, back, split, frames⟩ := mem_children_iff.mp isChild
  have parent : enclose child.focus ⟨cursor.row, front.reverse, back⟩ = cursor.focus := by
    obtain ⟨⟨row, children⟩, above⟩ := cursor
    obtain rfl : children = front ++ child.focus :: back := split
    simp [enclose, Cursor.row, Node.row]
  rw [ancestors, frames, enclosing, parent, ancestors]

/-- A row above another has children, and it comes before the other. -/
theorem of_mem_ancestors {place upper : Cursor} (isAbove : upper ∈ place.ancestors) :
    upper.focus.children ≠ [] ∧ upper.IsBefore place := by
  obtain ⟨focus, above⟩ := place
  induction above generalizing focus with
  | nil => cases isAbove
  | cons frame above inductionHypothesis =>
      have parentBefore : IsBefore ⟨enclose focus frame, above⟩ ⟨focus, frame :: above⟩ := by
        have longer : path ⟨focus, above⟩ ++ [] < path ⟨focus, above⟩ ++ [frame.earlier.length] :=
          List.append_left_lt (List.nil_lt_cons _ [])
        simpa [IsBefore, path] using longer
      rcases List.mem_cons.mp isAbove with rfl | further
      · exact ⟨by simp [enclose, Node.children], parentBefore⟩
      · obtain ⟨hasChildren, before⟩ := inductionHypothesis (enclose focus frame) further
        exact ⟨hasChildren, before.trans parentBefore⟩

/-- The places that count are those with no closed place above them. -/
theorem places_eq_filter {node : Node} {above : List Frame}
    (outside : ∀ upper ∈ ancestors ⟨node, above⟩, isClosed upper = false) :
    places isClosed node above =
      (placesFrom ⟨node, above⟩).filter fun place =>
        place.ancestors.all fun upper => !isClosed upper := by
  induction node generalizing above with
  | mk row children inductionHypothesis =>
      let here : Cursor := ⟨.mk row children, above⟩
      have kept : (here.ancestors.all fun upper => !isClosed upper) = true := by
        simpa using outside
      rw [places_eq isClosed here, placesFrom_eq here, List.filter_cons, if_pos kept,
        List.filter_flatMap]
      by_cases closed : isClosed here
      · -- Everything below has a closed place above it.
        rw [if_pos closed, eq_comm, List.cons.injEq, List.flatMap_eq_nil_iff]
        refine ⟨rfl, fun child isChild => List.filter_eq_nil_iff.mpr ?_⟩
        have stillAbove : ∀ place ∈ child.placesFrom, here ∈ place.ancestors := by
          apply forall_mem_places
          · rw [ancestors_of_mem_children isChild]
            exact List.mem_cons_self
          · intro place lower isAbove isLower
            rw [ancestors_of_mem_children isLower]
            exact List.mem_cons_of_mem _ isAbove
        intro place below isOpen
        have notClosed := List.all_eq_true.mp isOpen here (stillAbove place below)
        rw [closed] at notClosed
        cases notClosed
      · rw [if_neg closed]
        refine congrArg (here :: ·) (List.flatMap_congr fun child isChild => ?_)
        have stillOutside : ∀ upper ∈ child.ancestors, isClosed upper = false := by
          rw [ancestors_of_mem_children isChild]
          exact List.forall_mem_cons.mpr ⟨Bool.eq_false_iff.mpr closed, outside⟩
        exact inductionHypothesis child.focus (focus_mem_children isChild) stillOutside

end Cursor

end SourceAnnotations
