import Mathlib.Data.List.Nodup
import SourceAnnotations.Proofs.Tree.Outermost
import SourceAnnotations.Proofs.Tree.Paths

/-!
# Calls of a visitor

A walk calls its visitor with one place after the other, each time in the state that the call before
has left, and the answers decide where it goes.  A recording visitor keeps what it is called with
and what it answers.  The record shows that a walk is the fold over the rows of the tree in the
order of the text that passes over whatever lies below a skipped row.
-/

namespace SourceAnnotations

namespace Cursor

/-- The place that a visitor is called with, and what it answers. -/
structure Call where
  place : Cursor
  answer : Visit

variable {σ : Type} (visit : σ → Cursor → σ × Visit)

/-- The visitor that keeps its calls beside its state. -/
def recording (recorded : σ × List Call) (cursor : Cursor) : (σ × List Call) × Visit :=
  let (next, answer) := visit recorded.1 cursor
  ((next, recorded.2 ++ [⟨cursor, answer⟩]), answer)

/-- Calls made one after the other, each in the state that the one before has left, lead from one
state to another. -/
inductive Threads : σ → List Call → σ → Prop
  | nil {state : σ} : Threads state [] state
  | cons {state final : σ} {place : Cursor} {later : List Call}
      (rest : Threads (visit state place).1 later final) :
      Threads state (⟨place, (visit state place).2⟩ :: later) final

mutual

/-- The calls that a scan of a node within frames makes. -/
def calls (state : σ) : Node → List Frame → List Call
  | .mk row children, above =>
      ⟨⟨.mk row children, above⟩, (visit state ⟨.mk row children, above⟩).2⟩ ::
        match visit state ⟨.mk row children, above⟩ with
        | (_, .skip) => []
        | (next, .descend) => callsAll row above next [] children

/-- The calls that a scan of the children of a row makes, of which some come earlier. -/
def callsAll (parent : Row) (above : List Frame) (state : σ) : List Node → List Node → List Call
  | _, [] => []
  | earlier, child :: later =>
      calls state child (⟨parent, earlier, later⟩ :: above) ++
        callsAll parent above (scan visit state child (⟨parent, earlier, later⟩ :: above))
          (child :: earlier) later

end

/-! ## The record of a scan -/

mutual

theorem scan_recording (state : σ) (before : List Call) : (node : Node) → (above : List Frame) →
    scan (recording visit) (state, before) node above =
      (scan visit state node above, before ++ calls visit state node above)
  | .mk row children, above => by
      rw [scan, scan, calls, recording]
      rcases visit state ⟨.mk row children, above⟩ with ⟨next, answer⟩
      cases answer with
      | skip => rfl
      | descend =>
          refine (scanAll_recording row above next _ [] children).trans ?_
          rw [List.append_assoc, List.singleton_append]

theorem scanAll_recording (parent : Row) (above : List Frame) (state : σ) (before : List Call)
    (earlier : List Node) : (children : List Node) →
      scanAll (recording visit) parent above (state, before) earlier children =
        (scanAll visit parent above state earlier children,
          before ++ callsAll visit parent above state earlier children)
  | [] => by rw [scanAll, scanAll, callsAll, List.append_nil]
  | child :: later => by
      rw [scanAll, scan_recording state before child, scanAll_recording parent above _ _ _ later,
        scanAll, callsAll, List.append_assoc]

end

/-! ## The order of the calls -/

variable {visit}

theorem Threads.append {state middle final : σ} {earlier later : List Call}
    (first : Threads visit state earlier middle) (second : Threads visit middle later final) :
    Threads visit state (earlier ++ later) final := by
  induction first with
  | nil => exact second
  | cons _ inductionHypothesis => exact .cons (inductionHypothesis second)

variable (visit)

mutual

theorem threads_calls (state : σ) : (node : Node) → (above : List Frame) →
    Threads visit state (calls visit state node above) (scan visit state node above)
  | .mk row children, above => by
      rw [scan, calls]
      refine .cons ?_
      rcases visit state ⟨.mk row children, above⟩ with ⟨next, answer⟩
      cases answer with
      | skip => exact .nil
      | descend => exact threads_callsAll row above next [] children

theorem threads_callsAll (parent : Row) (above : List Frame) (state : σ) (earlier : List Node) :
    (children : List Node) →
      Threads visit state (callsAll visit parent above state earlier children)
        (scanAll visit parent above state earlier children)
  | [] => by
      rw [callsAll, scanAll]
      exact .nil
  | child :: later => by
      rw [callsAll, scanAll]
      exact (threads_calls state child _).append (threads_callsAll parent above _ _ later)

end

mutual

/-- When the closed places are those that the visitor answers to with skip, it is called with the
places that count. -/
theorem map_place_calls {isClosed : Cursor → Bool} (state : σ) :
    (node : Node) → (above : List Frame) →
      (∀ call ∈ calls visit state node above,
        isClosed call.place = true ↔ call.answer = .skip) →
        (calls visit state node above).map Call.place = places isClosed node above
  | .mk row children, above, agree => by
      rw [calls] at agree ⊢
      obtain ⟨here, agreeBelow⟩ := List.forall_mem_cons.mp agree
      rw [places, List.map_cons]
      generalize visit state ⟨.mk row children, above⟩ = visited at here agreeBelow ⊢
      obtain ⟨next, answer⟩ := visited
      cases answer with
      | skip => rw [if_pos (here.mpr rfl), List.map_nil]
      | descend =>
          rw [if_neg fun closed => Visit.noConfusion (here.mp closed)]
          exact congrArg (_ :: ·) (map_place_callsAll row above next [] children agreeBelow)

theorem map_place_callsAll {isClosed : Cursor → Bool} (parent : Row) (above : List Frame)
    (state : σ) (earlier : List Node) : (children : List Node) →
      (∀ call ∈ callsAll visit parent above state earlier children,
        isClosed call.place = true ↔ call.answer = .skip) →
        (callsAll visit parent above state earlier children).map Call.place =
          placesOfAll isClosed parent above earlier children
  | [], _ => by rw [callsAll, placesOfAll, List.map_nil]
  | child :: later, agree => by
      rw [callsAll] at agree ⊢
      obtain ⟨here, behind⟩ := List.forall_mem_append.mp agree
      rw [List.map_append, map_place_calls state child _ here,
        map_place_callsAll parent above _ (child :: earlier) later behind, placesOfAll]

end

mutual

/-- The visitor is called in the order of the text, and with no place twice. -/
theorem calls_sublist (state : σ) : (node : Node) → (above : List Frame) →
    ((calls visit state node above).map Call.place).Sublist (placesFrom ⟨node, above⟩)
  | .mk row children, above => by
      rw [calls, placesFrom, places, if_neg Bool.false_ne_true, List.map_cons]
      refine .cons_cons _ ?_
      rcases visit state ⟨.mk row children, above⟩ with ⟨next, answer⟩
      cases answer with
      | skip => exact List.nil_sublist _
      | descend => exact callsAll_sublist row above next [] children

theorem callsAll_sublist (parent : Row) (above : List Frame) (state : σ) (earlier : List Node) :
    (children : List Node) →
      ((callsAll visit parent above state earlier children).map Call.place).Sublist
        (placesOfAll (fun _ => false) parent above earlier children)
  | [] => by
      rw [callsAll, List.map_nil]
      exact List.nil_sublist _
  | child :: later => by
      rw [callsAll, placesOfAll, List.map_append]
      exact (calls_sublist state child _).append (callsAll_sublist parent above _ _ later)

end

/-- A call is told from the others by its place. -/
theorem eq_of_mem_calls {state : σ} {node : Node} {above : List Frame} {first second : Call}
    (isFirst : first ∈ calls visit state node above)
    (isSecond : second ∈ calls visit state node above) (same : first.place = second.place) :
    first = second :=
  List.inj_on_of_nodup_map
    ((nodup_places node above).sublist (calls_sublist visit state node above))
    isFirst isSecond same

/-- The visitor is called with the rows that have no skipped row above them. -/
theorem mem_map_place_calls_iff (state : σ) (root : Node) (place : Cursor) :
    place ∈ (calls visit state root []).map Call.place ↔
      place ∈ placesIn root ∧
        ∀ upper ∈ place.ancestors, ⟨upper, .skip⟩ ∉ calls visit state root [] := by
  classical
  let isClosed (upper : Cursor) : Bool := ⟨upper, .skip⟩ ∈ calls visit state root []
  have agree : ∀ call ∈ calls visit state root [],
      isClosed call.place = true ↔ call.answer = .skip := by
    intro call isCall
    rw [decide_eq_true_iff]
    constructor
    · intro skipped
      rw [eq_of_mem_calls visit isCall skipped rfl]
    · intro answer
      rwa [← answer]
  have outside : ∀ upper ∈ ancestors ⟨root, []⟩, isClosed upper = false :=
    fun _ isAbove => nomatch isAbove
  rw [map_place_calls visit state root [] agree, places_eq_filter outside, List.mem_filter]
  simp [isClosed, placesIn, atRoot]

/-- The visitor is called no more often than the tree has rows. -/
theorem length_calls_le (state : σ) (root : Node) :
    (calls visit state root []).length ≤ root.size := by
  have within := (calls_sublist visit state root []).length_le
  have counted := congrArg List.length (map_focus_places root [])
  rw [List.length_map, Node.length_preorder] at counted
  rwa [List.length_map, placesFrom, counted] at within

/-! ## Walks -/

/-- A walk through a tree is the fold by recursion, and it calls its visitor in the order of the
text, once for each row that no skipped row stands above and for no other row, each time in the
state that the call before has left.  It ends after no more calls than there are rows. -/
theorem walk_is_pruned_preorder (state : σ) (root : Node) :
    ∃ called : List Call,
      walkTree .live visit state root = .ok (scan visit state root []) ∧
      walkTree .live (recording visit) (state, []) root =
        .ok (scan visit state root [], called) ∧
      Threads visit state called (scan visit state root []) ∧
      called.length ≤ root.size ∧
      (called.map Call.place).Pairwise IsBefore ∧
      ∀ place, place ∈ called.map Call.place ↔
        place ∈ placesIn root ∧ ∀ upper ∈ place.ancestors, ⟨upper, .skip⟩ ∉ called := by
  refine ⟨calls visit state root [], ?_, ?_, threads_calls visit state root [],
    length_calls_le visit state root, ?_, mem_map_place_calls_iff visit state root⟩
  · exact congrArg Except.ok (walk_atRoot visit state root)
  · exact congrArg Except.ok ((walk_atRoot _ _ root).trans (scan_recording visit state [] root []))
  · exact (places_pairwise_isBefore root []).sublist (calls_sublist visit state root [])

end Cursor

end SourceAnnotations
