import SourceAnnotations.Proofs.Region.Order
import SourceAnnotations.Proofs.Text.Locations

/-!
# Regions that span a text

The two views of a region agree with a text when the locations are those of the bytes, and the bytes
are in order and within the text.  The regions that an index makes agree with its text, and so do
the regions that cover others.
-/

namespace SourceAnnotations

namespace Region

/-- Both views of the region are of one span of the text. -/
structure Spans (text : Text) (region : Region) : Prop where
  forward : region.startByte ≤ region.endByte
  within : region.endByte ≤ text.byteSize
  start : region.start = (LineIndex.ofText text).locationAt region.startByte
  stop : region.stop = (LineIndex.ofText text).locationAt region.endByte
  ordered : region.start.isAtOrBefore region.stop

variable {text : Text}

/-- The locations are in order when the bytes are. -/
theorem Spans.of_bytes {region : Region} (forward : region.startByte ≤ region.endByte)
    (within : region.endByte ≤ text.byteSize)
    (start : region.start = (LineIndex.ofText text).locationAt region.startByte)
    (stop : region.stop = (LineIndex.ofText text).locationAt region.endByte) :
    region.Spans text where
  forward := forward
  within := within
  start := start
  stop := stop
  ordered := by
    rw [start, stop]
    exact LineIndex.locationAt_mono forward

/-- Whatever the offsets are, even reversed or past the end. -/
theorem spans_region (text : Text) (start stop : Nat) :
    ((LineIndex.ofText text).region start stop).Spans text := by
  apply Spans.of_bytes
  · change min start text.byteSize ≤ min (max stop start) text.byteSize
    omega
  · exact Nat.min_le_right _ _
  · exact ((LineIndex.ofText text).locationAt_min start).symm
  · exact ((LineIndex.ofText text).locationAt_min (max stop start)).symm

/-- Where the cover starts in one region and stops in the other, the one starts before the other
stops, because their locations tell the order of their bytes. -/
theorem Spans.cover {left right : Region} (spansLeft : left.Spans text)
    (spansRight : right.Spans text) : (left.cover right).Spans text := by
  have byteOrder {low high : Nat}
      (after : ¬ ((LineIndex.ofText text).locationAt low).isAtOrBefore
        ((LineIndex.ofText text).locationAt high)) : high < low :=
    LineIndex.lt_of_not_isAtOrBefore after
  by_cases startsLeft : left.start.isAtOrBefore right.start
  · by_cases stopsLeft : right.stop.isAtOrBefore left.stop
    · have isLeft : left.cover right = left := by
        rw [Region.cover, if_pos startsLeft, if_pos stopsLeft]
      rw [isLeft]
      exact spansLeft
    · rw [Region.cover, if_pos startsLeft, if_neg stopsLeft]
      rw [spansLeft.stop, spansRight.stop] at stopsLeft
      have forward := Nat.le_trans spansLeft.forward (Nat.le_of_lt (byteOrder stopsLeft))
      exact .of_bytes forward spansRight.within spansLeft.start spansRight.stop
  · by_cases stopsLeft : right.stop.isAtOrBefore left.stop
    · rw [Region.cover, if_neg startsLeft, if_pos stopsLeft]
      rw [spansLeft.start, spansRight.start] at startsLeft
      have forward := Nat.le_trans (Nat.le_of_lt (byteOrder startsLeft)) spansLeft.forward
      exact .of_bytes forward spansLeft.within spansRight.start spansLeft.stop
    · have isRight : left.cover right = right := by
        rw [Region.cover, if_neg startsLeft, if_neg stopsLeft]
      rw [isRight]
      exact spansRight

/-- The regions of one text are in the order of their bytes, also where two of them have one
location. -/
theorem Spans.isBefore {left right : Region} (spansLeft : left.Spans text)
    (spansRight : right.Spans text) (start : left.startByte < right.startByte)
    (stop : left.endByte ≤ right.endByte) : left.IsBefore right := by
  have starts : left.start.isAtOrBefore right.start := by
    rw [spansLeft.start, spansRight.start]
    exact LineIndex.locationAt_mono (Nat.le_of_lt start)
  have stops : left.stop.isAtOrBefore right.stop := by
    rw [spansLeft.stop, spansRight.stop]
    exact LineIndex.locationAt_mono stop
  have bytes : (compare left.startByte right.startByte).then
      (compare left.endByte right.endByte) = .lt :=
    Ordering.then_eq_lt.mpr (.inl (Nat.compare_eq_lt.mpr start))
  rw [Location.isAtOrBefore, Ordering.isLE_iff_eq_lt_or_eq_eq] at starts stops
  refine Ordering.then_eq_lt.mpr (starts.imp_right fun sameStart => ⟨sameStart, ?_⟩)
  exact Ordering.then_eq_lt.mpr (stops.imp_right fun sameStop => ⟨sameStop, bytes⟩)

end Region

/-! ## Lists ordered by region -/

section

variable {α : Type} {region : α → Region} {item : α} {items : List α}

theorem mem_sortByRegion : item ∈ sortByRegion region items ↔ item ∈ items :=
  List.mem_mergeSort

theorem mem_of_mem_dropRepeatsAfter {kept : α}
    (member : item ∈ dropRepeatsAfter region kept items) : item ∈ items := by
  induction items generalizing kept with
  | nil => exact member
  | cons head tail inductionHypothesis =>
      rw [dropRepeatsAfter] at member
      split at member
      · exact List.mem_cons_of_mem _ (inductionHypothesis member)
      · rcases List.mem_cons.mp member with rfl | member
        · exact List.mem_cons_self
        · exact List.mem_cons_of_mem _ (inductionHypothesis member)

theorem mem_of_mem_dropRepeats (member : item ∈ dropRepeats region items) : item ∈ items := by
  cases items with
  | nil => exact member
  | cons head tail =>
      rcases List.mem_cons.mp member with rfl | member
      · exact List.mem_cons_self
      · exact List.mem_cons_of_mem _ (mem_of_mem_dropRepeatsAfter member)

end

end SourceAnnotations
