import SourceAnnotations.Proofs.Tree.Rows
import SourceAnnotations.Proofs.Tree.Walk

/-!
# Places of a tree

Every row of a tree has its place, a cursor with the row in its focus.  A walk that decides by the
place alone whether to go on below it comes to a list of places that does not depend on its state,
and visits them in order.
-/

namespace SourceAnnotations

namespace Cursor

/-! ## The children of a place -/

/-- A child stands between the children before it and those behind it. -/
theorem mem_childrenFrom_iff {parent : Row} {above : List Frame} {earlier children : List Node}
    {child : Cursor} :
    child ∈ childrenFrom parent above earlier children ↔
      ∃ front back, children = front ++ child.focus :: back ∧
        child.above = ⟨parent, front.reverse ++ earlier, back⟩ :: above := by
  induction children generalizing earlier with
  | nil => simp [childrenFrom]
  | cons head later inductionHypothesis =>
      rw [childrenFrom, List.mem_cons, inductionHypothesis]
      constructor
      · rintro (rfl | ⟨front, back, rfl, frames⟩)
        · exact ⟨[], later, rfl, rfl⟩
        · exact ⟨head :: front, back, rfl, by simpa using frames⟩
      · rintro ⟨front, back, split, frames⟩
        obtain ⟨focus, above⟩ := child
        cases front with
        | nil =>
            obtain ⟨rfl, rfl⟩ := List.cons.inj split
            exact .inl (congrArg (Cursor.mk _) frames)
        | cons first others =>
            obtain ⟨rfl, rfl⟩ := List.cons.inj split
            exact .inr ⟨others, back, rfl, by simpa using frames⟩

theorem mem_children_iff {cursor child : Cursor} :
    child ∈ cursor.children ↔
      ∃ front back, cursor.focus.children = front ++ child.focus :: back ∧
        child.above = ⟨cursor.row, front.reverse, back⟩ :: cursor.above := by
  rw [children, mem_childrenFrom_iff]
  simp only [List.append_nil]

theorem focus_mem_children {cursor child : Cursor} (isChild : child ∈ cursor.children) :
    child.focus ∈ cursor.focus.children := by
  obtain ⟨front, back, split, _⟩ := mem_children_iff.mp isChild
  rw [split]
  exact List.mem_append_right front List.mem_cons_self

theorem map_focus_childrenFrom (parent : Row) (above : List Frame) (earlier children : List Node) :
    (childrenFrom parent above earlier children).map focus = children := by
  induction children generalizing earlier with
  | nil => rfl
  | cons child later inductionHypothesis =>
      rw [childrenFrom, List.map_cons, inductionHypothesis]

theorem map_focus_children (cursor : Cursor) :
    cursor.children.map focus = cursor.focus.children :=
  map_focus_childrenFrom cursor.row cursor.above [] cursor.focus.children

/-! ## Places -/

section

variable (isClosed : Cursor → Bool)

mutual

/-- The place of a node within frames and those of the rows below it, in the order of the text.  No
place below a closed one counts. -/
def places : Node → List Frame → List Cursor
  | .mk row children, above =>
      ⟨.mk row children, above⟩ ::
        if isClosed ⟨.mk row children, above⟩ then []
        else placesOfAll row above [] children

/-- The places of the children of a row and of the rows below them, of which some come earlier. -/
def placesOfAll (parent : Row) (above : List Frame) : List Node → List Node → List Cursor
  | _, [] => []
  | earlier, child :: later =>
      places child (⟨parent, earlier, later⟩ :: above) ++
        placesOfAll parent above (child :: earlier) later

end

theorem placesOfAll_eq (parent : Row) (above : List Frame) (earlier children : List Node) :
    placesOfAll isClosed parent above earlier children =
      (childrenFrom parent above earlier children).flatMap fun child =>
        places isClosed child.focus child.above := by
  induction children generalizing earlier with
  | nil => rw [placesOfAll, childrenFrom, List.flatMap_nil]
  | cons child later inductionHypothesis =>
      rw [placesOfAll, childrenFrom, List.flatMap_cons, inductionHypothesis]

/-- The places from a place on are it and, unless it is closed, those from its children on. -/
theorem places_eq (cursor : Cursor) :
    places isClosed cursor.focus cursor.above =
      cursor :: if isClosed cursor then []
        else cursor.children.flatMap fun child => places isClosed child.focus child.above := by
  obtain ⟨⟨row, children⟩, above⟩ := cursor
  rw [places, placesOfAll_eq]
  rfl

/-! ## Walks -/

section

variable {σ : Type} {visit : σ → Cursor → σ × Visit}

/-- The visitor goes on below every place that is not closed. -/
def Decides (visit : σ → Cursor → σ × Visit) : Prop :=
  ∀ state cursor, (visit state cursor).2 = if isClosed cursor then .skip else .descend

mutual

theorem scan_eq_foldl (decides : Decides isClosed visit) (state : σ) :
    (node : Node) → (above : List Frame) →
      scan visit state node above =
        (places isClosed node above).foldl (fun state place => (visit state place).1) state
  | .mk row children, above => by
      have wanted := decides state ⟨.mk row children, above⟩
      rw [scan, places, List.foldl_cons]
      generalize visit state ⟨.mk row children, above⟩ = visited at wanted ⊢
      obtain ⟨next, answer⟩ := visited
      obtain rfl : answer = _ := wanted
      cases isClosed ⟨.mk row children, above⟩ with
      | true => rfl
      | false => exact scanAll_eq_foldl decides row above next [] children

theorem scanAll_eq_foldl (decides : Decides isClosed visit) (parent : Row) (above : List Frame)
    (state : σ) (earlier : List Node) : (children : List Node) →
      scanAll visit parent above state earlier children =
        (placesOfAll isClosed parent above earlier children).foldl
          (fun state place => (visit state place).1) state
  | [] => rfl
  | child :: later => by
      rw [scanAll, placesOfAll, List.foldl_append, scan_eq_foldl decides state child,
        scanAll_eq_foldl decides parent above _ (child :: earlier) later]

end

variable {isClosed}

/-- A walk visits the places that are not below closed ones, in order. -/
theorem walk_eq_foldl (decides : Decides isClosed visit) (state : σ) (root : Node) :
    walk visit state (.atRoot root) =
      (places isClosed root []).foldl (fun state place => (visit state place).1) state := by
  rw [walk_atRoot, scan_eq_foldl isClosed decides]

end

variable {isClosed}

/-! ## What is a place -/

/-- The place itself is the first from it on. -/
theorem mem_places_self (cursor : Cursor) : cursor ∈ places isClosed cursor.focus cursor.above := by
  rw [places_eq]
  exact List.mem_cons_self

theorem mem_places_of_child {place child cursor : Cursor} (isChild : child ∈ cursor.children)
    (below : place ∈ places (fun _ => false) child.focus child.above) :
    place ∈ places (fun _ => false) cursor.focus cursor.above := by
  rw [places_eq]
  exact List.mem_cons_of_mem _ (List.mem_flatMap.mpr ⟨child, isChild, below⟩)

/-- What holds of all children of a place when it holds of the place holds of all places from one
place on. -/
theorem forall_mem_places {motive : Cursor → Prop} {node : Node} {above : List Frame}
    (start : motive ⟨node, above⟩)
    (step : ∀ cursor child, motive cursor → child ∈ cursor.children → motive child) :
    ∀ place ∈ places isClosed node above, motive place := by
  induction node generalizing above with
  | mk row children inductionHypothesis =>
      intro place found
      rw [places_eq isClosed ⟨.mk row children, above⟩] at found
      rcases List.mem_cons.mp found with rfl | below
      · exact start
      · split at below
        · cases below
        · obtain ⟨child, isChild, within⟩ := List.mem_flatMap.mp below
          exact inductionHypothesis child.focus (focus_mem_children isChild)
            (step _ child start isChild) place within

/-- The children of a place are places of the same tree. -/
theorem mem_places_child {node : Node} {above : List Frame} {cursor child : Cursor}
    (found : cursor ∈ places (fun _ => false) node above) (isChild : child ∈ cursor.children) :
    child ∈ places (fun _ => false) node above := by
  induction node generalizing above with
  | mk row children inductionHypothesis =>
      rw [places_eq (fun _ => false) ⟨.mk row children, above⟩] at found
      rcases List.mem_cons.mp found with rfl | below
      · exact mem_places_of_child isChild (mem_places_self child)
      · obtain ⟨top, isTop, within⟩ := List.mem_flatMap.mp below
        exact mem_places_of_child isTop
          (inductionHypothesis top.focus (focus_mem_children isTop) within)

/-- A place that counts with closed places is one without them. -/
theorem mem_places_of_mem {node : Node} {above : List Frame} {place : Cursor}
    (found : place ∈ places isClosed node above) : place ∈ places (fun _ => false) node above :=
  forall_mem_places (mem_places_self ⟨node, above⟩) (fun _ _ => mem_places_child) place found

end

end Cursor

end SourceAnnotations
