import SourceAnnotations.Region.Basic

/-!
# Lists ordered by region

The two passes by which every list of annotations gets its order: sorting by region, in which items
of one region keep their order, and dropping each item whose region is that of the item kept before
it.
-/

namespace SourceAnnotations

/-- The items in the order of their regions; items of one region keep the order they had. -/
def sortByRegion {α : Type} (region : α → Region) (items : List α) : List α :=
  items.mergeSort fun left right => (region left).isAtOrBefore (region right)

/-- The items after `kept`, without those that stand in a run of items of the region of `kept` or of
an item kept later. -/
def dropRepeatsAfter {α : Type} (region : α → Region) (kept : α) : List α → List α
  | [] => []
  | head :: tail =>
      if region head = region kept then
        dropRepeatsAfter region kept tail
      else
        head :: dropRepeatsAfter region head tail

/-- The first item of each run of neighbours that share a region. -/
def dropRepeats {α : Type} (region : α → Region) : List α → List α
  | [] => []
  | head :: tail => head :: dropRepeatsAfter region head tail

end SourceAnnotations
