/-!
# Locations and regions

A location is a line and a column, both from zero; columns count characters. A region is a span of
a text in two views at once: its start and stop as locations, and the same span as a half-open range
of bytes. Regions are ordered by start, then stop, then by the two byte offsets, so two regions
compare as equal only when they are equal.
-/

namespace SourceAnnotations

/-! ## Locations -/

/-- A line and a column within it, both counted from zero. -/
structure Location where
  line : Nat
  column : Nat
deriving DecidableEq, Repr, Inhabited

namespace Location

/-- Locations are compared by line, then by column. -/
protected def compare (left right : Location) : Ordering :=
  (compare left.line right.line).then (compare left.column right.column)

instance : Ord Location := ⟨Location.compare⟩

def isAtOrBefore (left right : Location) : Bool :=
  (compare left right).isLE

end Location

/-! ## Regions -/

/-- A span of a text, as locations and as a half-open range of bytes. -/
structure Region where
  start : Location
  stop : Location
  startByte : Nat
  endByte : Nat
deriving DecidableEq, Repr, Inhabited

namespace Region

/-- Regions are compared by start, then stop, then by the two byte offsets. -/
protected def compare (left right : Region) : Ordering :=
  (compare left.start right.start).then <|
    (compare left.stop right.stop).then <|
      (compare left.startByte right.startByte).then
        (compare left.endByte right.endByte)

instance : Ord Region := ⟨Region.compare⟩

def isAtOrBefore (left right : Region) : Bool :=
  (compare left right).isLE

/-- The smallest region around both. Where both start, or both stop, at one location, the byte
offset of `left` is taken. -/
def cover (left right : Region) : Region :=
  let first := if left.start.isAtOrBefore right.start then left else right
  let last := if right.stop.isAtOrBefore left.stop then left else right
  ⟨first.start, last.stop, first.startByte, last.endByte⟩

/-- Whether the region stops on a later line than it starts. -/
def isMultiLine (region : Region) : Bool :=
  region.start.line < region.stop.line

end Region

end SourceAnnotations
