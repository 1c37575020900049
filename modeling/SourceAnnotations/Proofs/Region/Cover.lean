import SourceAnnotations.Proofs.Region.Span
import SourceAnnotations.Proofs.Text.Coordinates

/-!
# Regions between cuts

A cut is an offset that no character of the text lies over.  Two cuts within the text have the same
location only when they are the same cut, so the order of their locations is that of the cuts
themselves.  Regions between cuts are thus compared like their byte ranges, and they are joined like
them too: where two of them start, or stop, at one location, it does not matter whose byte is taken.
-/

namespace SourceAnnotations

/-! ## Cuts -/

namespace Text

/-- The offset is a character boundary of the text or lies past its end. -/
def IsCut (text : Text) (byte : Nat) : Prop :=
  (∃ front rest, text = front ++ rest ∧ front.byteSize = byte) ∨ text.byteSize ≤ byte

/-- The bytes from one cut of the text to another. -/
structure IsRange (text : Text) (start stop : Nat) : Prop where
  ordered : start ≤ stop
  isStart : text.IsCut start
  isStop : text.IsCut stop

variable {text : Text} {byte other start stop start' stop' : Nat}

theorem IsCut.exists_split (cut : text.IsCut byte) :
    ∃ front rest, text = front ++ rest ∧ front.byteSize = min byte text.byteSize := by
  rcases cut with ⟨front, rest, split, size⟩ | beyond
  · refine ⟨front, rest, split, ?_⟩
    have within : front.byteSize ≤ text.byteSize := by
      simp [split]
    omega
  · exact ⟨text, [], by simp, by omega⟩

theorem IsCut.min (cut : text.IsCut byte) (cut' : text.IsCut other) :
    text.IsCut (min byte other) := by
  rcases Nat.le_total byte other with ordered | ordered
  · simpa [Nat.min_eq_left ordered] using cut
  · simpa [Nat.min_eq_right ordered] using cut'

theorem IsCut.max (cut : text.IsCut byte) (cut' : text.IsCut other) :
    text.IsCut (max byte other) := by
  rcases Nat.le_total byte other with ordered | ordered
  · simpa [Nat.max_eq_right ordered] using cut'
  · simpa [Nat.max_eq_left ordered] using cut

/-- The smallest range around two others. -/
theorem IsRange.join (range : text.IsRange start stop) (range' : text.IsRange start' stop') :
    text.IsRange (min start start') (max stop stop') where
  ordered := Nat.le_trans (Nat.min_le_left _ _) (Nat.le_trans range.ordered (Nat.le_max_left _ _))
  isStart := range.isStart.min range'.isStart
  isStop := range.isStop.max range'.isStop

end Text

/-! ## Locations of cuts -/

namespace LineIndex

variable {text : Text} {byte other : Nat}

/-- The location of an offset is known from where in the text it lies. -/
theorem locationAt_congr (same : min byte text.byteSize = min other text.byteSize) :
    (ofText text).locationAt byte = (ofText text).locationAt other := by
  have here := (ofText text).locationAt_min byte
  have there := (ofText text).locationAt_min other
  simp only [byteCount, ofText] at here there ⊢
  rw [← here, ← there, same]

theorem locationAt_isBefore_of_lt (cut : text.IsCut byte) (cut' : text.IsCut other)
    (before : min byte text.byteSize < min other text.byteSize) :
    ((ofText text).locationAt byte).IsBefore ((ofText text).locationAt other) := by
  obtain ⟨front, rest, split, size⟩ := cut.exists_split
  obtain ⟨front', rest', split', size'⟩ := cut'.exists_split
  obtain ⟨middle, rfl⟩ : front <+: front' :=
    Text.isPrefix_of_byteSize_le ⟨rest, split.symm⟩ ⟨rest', split'.symm⟩ (by omega)
  have nonempty : middle ≠ [] := by
    intro empty
    simp only [empty, List.append_nil] at size'
    omega
  have here : (ofText text).locationAt byte = (ofText text).locationAt front.byteSize :=
    locationAt_congr (by omega)
  have there : (ofText text).locationAt other =
      (ofText text).locationAt (front ++ middle).byteSize :=
    locationAt_congr (by omega)
  rw [here, there, split', List.append_assoc]
  exact locationAt_isBefore nonempty

/-- The locations of cuts are ordered like the cuts. -/
theorem compare_locationAt (cut : text.IsCut byte) (cut' : text.IsCut other) :
    compare ((ofText text).locationAt byte) ((ofText text).locationAt other) =
      compare (min byte text.byteSize) (min other text.byteSize) := by
  rcases Nat.lt_trichotomy (min byte text.byteSize) (min other text.byteSize) with
    before | same | behind
  · rw [Nat.compare_eq_lt.mpr before]
    exact locationAt_isBefore_of_lt cut cut' before
  · rw [locationAt_congr same, same]
    simp
  · rw [Nat.compare_eq_gt.mpr behind]
    apply Std.OrientedCmp.gt_of_lt
    exact locationAt_isBefore_of_lt cut' cut behind

theorem isAtOrBefore_locationAt_iff (cut : text.IsCut byte) (cut' : text.IsCut other) :
    ((ofText text).locationAt byte).isAtOrBefore ((ofText text).locationAt other) ↔
      min byte text.byteSize ≤ min other text.byteSize := by
  rw [Location.isAtOrBefore, compare_locationAt cut cut']
  exact Nat.isLE_compare

end LineIndex

/-! ## Regions of a text -/

namespace Region

/-- The region lies between two cuts of the text. -/
def IsOf (text : Text) (region : Region) : Prop :=
  ∃ start stop, text.IsRange start stop ∧ region = (LineIndex.ofText text).region start stop

/-- The bytes of one region are among those of another. -/
def Encloses (outer inner : Region) : Prop :=
  outer.startByte ≤ inner.startByte ∧ inner.endByte ≤ outer.endByte

section

variable {text : Text} {start stop start' stop' : Nat}

theorem region_of_range (range : text.IsRange start stop) :
    (LineIndex.ofText text).region start stop =
      ⟨(LineIndex.ofText text).locationAt start, (LineIndex.ofText text).locationAt stop,
        min start text.byteSize, min stop text.byteSize⟩ := by
  rw [LineIndex.region, Nat.max_eq_left range.ordered]
  rfl

/-- The byte offsets, which the order of regions looks at last, never decide between regions whose
locations are the same. -/
theorem compare_region (range : text.IsRange start stop) (range' : text.IsRange start' stop') :
    compare ((LineIndex.ofText text).region start stop)
        ((LineIndex.ofText text).region start' stop') =
      (compare (min start text.byteSize) (min start' text.byteSize)).then
        (compare (min stop text.byteSize) (min stop' text.byteSize)) := by
  rw [region_of_range range, region_of_range range']
  change (compare ((LineIndex.ofText text).locationAt start) _).then
    ((compare ((LineIndex.ofText text).locationAt stop) _).then
      ((compare (min start text.byteSize) _).then (compare (min stop text.byteSize) _))) = _
  rw [LineIndex.compare_locationAt range.isStart range'.isStart,
    LineIndex.compare_locationAt range.isStop range'.isStop]
  generalize compare (min start text.byteSize) _ = starts
  generalize compare (min stop text.byteSize) _ = stops
  cases starts <;> cases stops <;> rfl

theorem cover_region (range : text.IsRange start stop) (range' : text.IsRange start' stop') :
    ((LineIndex.ofText text).region start stop).cover
        ((LineIndex.ofText text).region start' stop') =
      (LineIndex.ofText text).region (min start start') (max stop stop') := by
  rw [region_of_range range, region_of_range range', region_of_range (range.join range'), cover]
  simp only [LineIndex.isAtOrBefore_locationAt_iff range.isStart range'.isStart,
    LineIndex.isAtOrBefore_locationAt_iff range'.isStop range.isStop, Region.mk.injEq]
  refine ⟨?_, ?_, ?_, ?_⟩
  · split <;> exact LineIndex.locationAt_congr (by omega)
  · split <;> exact LineIndex.locationAt_congr (by omega)
  · split <;> dsimp only <;> omega
  · split <;> dsimp only <;> omega

end

/-! ## Joining regions of a text -/

section

variable {text : Text} {left right third outer inner : Region}

theorem cover_self (region : Region) : region.cover region = region := by
  simp only [cover, ite_self]

theorem IsOf.cover (isLeft : left.IsOf text) (isRight : right.IsOf text) :
    (left.cover right).IsOf text := by
  obtain ⟨start, stop, range, rfl⟩ := isLeft
  obtain ⟨start', stop', range', rfl⟩ := isRight
  rw [cover_region range range']
  exact ⟨_, _, range.join range', rfl⟩

theorem IsOf.cover_comm (isLeft : left.IsOf text) (isRight : right.IsOf text) :
    left.cover right = right.cover left := by
  obtain ⟨start, stop, range, rfl⟩ := isLeft
  obtain ⟨start', stop', range', rfl⟩ := isRight
  rw [cover_region range range', cover_region range' range, Nat.min_comm, Nat.max_comm]

theorem IsOf.cover_assoc (isLeft : left.IsOf text) (isRight : right.IsOf text)
    (isThird : third.IsOf text) :
    (left.cover right).cover third = left.cover (right.cover third) := by
  obtain ⟨start, stop, range, rfl⟩ := isLeft
  obtain ⟨start', stop', range', rfl⟩ := isRight
  obtain ⟨start'', stop'', range'', rfl⟩ := isThird
  rw [cover_region range range', cover_region range' range'',
    cover_region (range.join range') range'', cover_region range (range'.join range''),
    Nat.min_assoc, Nat.max_assoc]

/-- What encloses two regions of a text encloses the region that joins them. -/
theorem IsOf.encloses_cover_iff (isLeft : left.IsOf text) (isRight : right.IsOf text) :
    outer.Encloses (left.cover right) ↔ outer.Encloses left ∧ outer.Encloses right := by
  obtain ⟨start, stop, range, rfl⟩ := isLeft
  obtain ⟨start', stop', range', rfl⟩ := isRight
  rw [cover_region range range', region_of_range range, region_of_range range',
    region_of_range (range.join range')]
  simp only [Encloses]
  omega

/-- The two views of the regions of a text agree on which of them encloses which. -/
theorem IsOf.encloses_iff (isOuter : outer.IsOf text) (isInner : inner.IsOf text) :
    outer.Encloses inner ↔
      outer.start.isAtOrBefore inner.start ∧ inner.stop.isAtOrBefore outer.stop := by
  obtain ⟨start, stop, range, rfl⟩ := isOuter
  obtain ⟨start', stop', range', rfl⟩ := isInner
  rw [region_of_range range, region_of_range range', Encloses]
  dsimp only
  rw [LineIndex.isAtOrBefore_locationAt_iff range.isStart range'.isStart,
    LineIndex.isAtOrBefore_locationAt_iff range'.isStop range.isStop]

end

/-! ## Regions as ranges -/

/-- Regions between cuts of a text are compared and joined like the ranges of their bytes.  So on
the regions of a text joining is commutative, associative and idempotent, and it gives the smallest
of them around two others. -/
theorem regions_join_like_ranges (text : Text) :
    let index := LineIndex.ofText text
    (∀ start stop start' stop', text.IsRange start stop → text.IsRange start' stop' →
      compare (index.region start stop) (index.region start' stop') =
          (compare (min start text.byteSize) (min start' text.byteSize)).then
            (compare (min stop text.byteSize) (min stop' text.byteSize)) ∧
        (index.region start stop).cover (index.region start' stop') =
          index.region (min start start') (max stop stop')) ∧
    ∀ left right third : Region, left.IsOf text → right.IsOf text → third.IsOf text →
      left.cover right = right.cover left ∧
        (left.cover right).cover third = left.cover (right.cover third) ∧
        left.cover left = left ∧
        (left.cover right).IsOf text ∧
        (left.cover right).Encloses left ∧ (left.cover right).Encloses right ∧
        (third.Encloses left → third.Encloses right → third.Encloses (left.cover right)) ∧
        (third.Encloses left ↔
          third.start.isAtOrBefore left.start ∧ left.stop.isAtOrBefore third.stop) := by
  intro index
  constructor
  · intro start stop start' stop' range range'
    exact ⟨compare_region range range', cover_region range range'⟩
  · intro left right third isLeft isRight isThird
    have around : (left.cover right).Encloses (left.cover right) :=
      ⟨Nat.le_refl _, Nat.le_refl _⟩
    obtain ⟨aroundLeft, aroundRight⟩ := (isLeft.encloses_cover_iff isRight).mp around
    refine ⟨isLeft.cover_comm isRight, isLeft.cover_assoc isRight isThird, left.cover_self,
      isLeft.cover isRight, aroundLeft, aroundRight, ?_, isThird.encloses_iff isLeft⟩
    intro enclosesLeft enclosesRight
    exact (isLeft.encloses_cover_iff isRight).mpr ⟨enclosesLeft, enclosesRight⟩

/-- One region stops past the end, the other one before the last line. -/
theorem regions_join_like_ranges_past_end :
    let text : Text := ['a', 'é', '\n', 'b']
    let index := LineIndex.ofText text
    let early := index.region 0 3
    let late := index.region 1 9
    let whole := index.region 0 5
    compare late early = .gt ∧ late.cover early = index.region 0 9 ∧
      late.cover early = early.cover late ∧
      (late.cover early).cover whole = late.cover (early.cover whole) ∧
      late.cover late = late ∧
      whole.Encloses (late.cover early) := by
  intro text index early late whole
  have start : text.IsCut 0 := .inl ⟨[], text, rfl, rfl⟩
  have behindFirst : text.IsCut 1 := .inl ⟨['a'], ['é', '\n', 'b'], rfl, rfl⟩
  have beforeBreak : text.IsCut 3 := .inl ⟨['a', 'é'], ['\n', 'b'], rfl, rfl⟩
  have stop : text.IsCut 5 := .inl ⟨text, [], rfl, rfl⟩
  have beyond : text.IsCut 9 := .inr (by decide)
  have earlyRange : text.IsRange 0 3 := ⟨by decide, start, beforeBreak⟩
  have lateRange : text.IsRange 1 9 := ⟨by decide, behindFirst, beyond⟩
  have wholeRange : text.IsRange 0 5 := ⟨by decide, start, stop⟩
  obtain ⟨ranges, laws⟩ := regions_join_like_ranges text
  obtain ⟨comparison, joined⟩ := ranges 1 9 0 3 lateRange earlyRange
  obtain ⟨commutes, associates, idempotent, _, _, _, smallest, _⟩ :=
    laws late early whole ⟨1, 9, lateRange, rfl⟩ ⟨0, 3, earlyRange, rfl⟩ ⟨0, 5, wholeRange, rfl⟩
  exact ⟨comparison, joined, commutes, associates, idempotent,
    smallest ⟨by decide, by decide⟩ ⟨by decide, by decide⟩⟩

end Region

end SourceAnnotations
