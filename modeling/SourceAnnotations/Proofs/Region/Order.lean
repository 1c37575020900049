import SourceAnnotations.Region.Ordered

/-!
# The order of regions

Regions are ordered like the four things they consist of, one after the other.  So the order is
total, and only equal regions compare as equal.  Sorting by region and dropping repeats thus leaves
the items strictly increasing, one for each region: the one that came first, because sorting keeps
the order of items that share a region.
-/

namespace SourceAnnotations

/-! ## The order -/

instance : Std.TransOrd Location :=
  inferInstanceAs (Std.TransCmp
    (compareLex (compareOn Location.line) (compareOn Location.column)))

instance : Std.LawfulEqOrd Location where
  eq_of_compare {left right} same := by
    have both :
        ((compare left.line right.line).then (compare left.column right.column)) = .eq := same
    rw [Ordering.then_eq_eq, Nat.compare_eq_eq, Nat.compare_eq_eq] at both
    obtain ⟨line, column⟩ := left
    obtain ⟨rfl, rfl⟩ := both
    rfl

instance : Std.TransOrd Region :=
  inferInstanceAs (Std.TransCmp
    (compareLex (compareOn Region.start) <| compareLex (compareOn Region.stop) <|
      compareLex (compareOn Region.startByte) (compareOn Region.endByte)))

instance : Std.LawfulEqOrd Region where
  eq_of_compare {left right} same := by
    have all :
        ((compare left.start right.start).then <| (compare left.stop right.stop).then <|
          (compare left.startByte right.startByte).then
            (compare left.endByte right.endByte)) = .eq := same
    simp only [Ordering.then_eq_eq, Std.LawfulEqOrd.compare_eq_iff_eq] at all
    obtain ⟨start, stop, startByte, endByte⟩ := left
    obtain ⟨rfl, rfl, rfl, rfl⟩ := all
    rfl

namespace Region

/-- One region comes before another. -/
def IsBefore (left right : Region) : Prop :=
  compare left right = .lt

instance (left right : Region) : Decidable (left.IsBefore right) :=
  inferInstanceAs (Decidable (_ = _))

theorem IsBefore.trans {first second third : Region} (before : first.IsBefore second)
    (after : second.IsBefore third) : first.IsBefore third :=
  Std.TransCmp.lt_trans before after

theorem IsBefore.ne {left right : Region} (before : left.IsBefore right) : left ≠ right := by
  rintro rfl
  have same : compare left left = .eq := Std.ReflCmp.compare_self
  rw [IsBefore, same] at before
  cases before

theorem IsBefore.isAtOrBefore {left right : Region} (before : left.IsBefore right) :
    left.isAtOrBefore right := by
  rw [Region.isAtOrBefore, before]
  rfl

theorem isBefore_of_isAtOrBefore {left right : Region} (ordered : left.isAtOrBefore right)
    (different : right ≠ left) : left.IsBefore right := by
  rw [isAtOrBefore, Ordering.isLE_iff_eq_lt_or_eq_eq] at ordered
  refine ordered.resolve_right fun same => different ?_
  exact (Std.LawfulEqOrd.eq_of_compare same).symm

theorem isAtOrBefore_trans {first second third : Region} (before : first.isAtOrBefore second)
    (after : second.isAtOrBefore third) : first.isAtOrBefore third :=
  Std.TransCmp.isLE_trans before after

theorem isAtOrBefore_refl (region : Region) : region.isAtOrBefore region := by
  have same : compare region region = .eq := Std.ReflCmp.compare_self
  rw [isAtOrBefore, same]
  rfl

theorem isAtOrBefore_total (left right : Region) :
    left.isAtOrBefore right || right.isAtOrBefore left := by
  rw [Bool.or_eq_true]
  by_cases ordered : left.isAtOrBefore right
  · exact .inl ordered
  · refine .inr ?_
    have swapped : compare right left = (compare left right).swap :=
      Std.OrientedCmp.eq_swap
    rw [isAtOrBefore] at ordered
    rw [isAtOrBefore, swapped]
    generalize compare left right = comparison at ordered
    cases comparison with
    | lt => exact absurd rfl ordered
    | eq => rfl
    | gt => rfl

/-- A region that starts on an earlier line comes first. -/
theorem isBefore_of_line_lt {left right : Region} (line : left.start.line < right.start.line) :
    left.IsBefore right := by
  have start : compare left.start right.start = .lt :=
    Ordering.then_eq_lt.mpr (.inl (Nat.compare_eq_lt.mpr line))
  exact Ordering.then_eq_lt.mpr (.inl start)

end Region

/-! ## Lists ordered by region -/

section

variable {α : Type} {region : α → Region}

theorem sortByRegion_pairwise (items : List α) :
    (sortByRegion region items).Pairwise fun left right =>
      (region left).isAtOrBefore (region right) := by
  apply List.pairwise_mergeSort
  · exact fun first second third => Region.isAtOrBefore_trans
  · exact fun left right => Region.isAtOrBefore_total (region left) (region right)

/-- Behind an item that comes first no item is lost but those of the region of one that is kept. -/
theorem dropRepeatsAfter_of_sorted {kept : α} {items : List α}
    (sorted : (kept :: items).Pairwise fun left right =>
      (region left).isAtOrBefore (region right)) :
    (kept :: dropRepeatsAfter region kept items).Pairwise
        (fun left right => (region left).IsBefore (region right)) ∧
      ∀ item ∈ kept :: items, ∃ other ∈ kept :: dropRepeatsAfter region kept items,
        region other = region item := by
  induction items generalizing kept with
  | nil => exact ⟨List.pairwise_singleton _ _, fun item found => ⟨item, found, rfl⟩⟩
  | cons head tail inductionHypothesis =>
      obtain ⟨first, sortedTail⟩ := List.pairwise_cons.mp sorted
      rw [dropRepeatsAfter]
      by_cases same : region head = region kept
      · have sortedKept := sorted.sublist
          ((List.sublist_cons_self head tail).cons_cons kept)
        obtain ⟨increasing, found⟩ := inductionHypothesis sortedKept
        rw [if_pos same]
        refine ⟨increasing, List.forall_mem_cons.mpr ⟨found kept List.mem_cons_self, ?_⟩⟩
        refine List.forall_mem_cons.mpr ⟨⟨kept, List.mem_cons_self, same.symm⟩, ?_⟩
        exact fun item inTail => found item (List.mem_cons_of_mem kept inTail)
      · obtain ⟨increasing, found⟩ := inductionHypothesis sortedTail
        have before : (region kept).IsBefore (region head) :=
          Region.isBefore_of_isAtOrBefore (first head List.mem_cons_self) same
        rw [if_neg same]
        refine ⟨List.pairwise_cons.mpr ⟨?_, increasing⟩, ?_⟩
        · refine List.forall_mem_cons.mpr ⟨before, fun item later => ?_⟩
          exact before.trans ((List.pairwise_cons.mp increasing).1 item later)
        · refine List.forall_mem_cons.mpr ⟨⟨kept, List.mem_cons_self, rfl⟩, fun item inRest => ?_⟩
          obtain ⟨other, isKept, sameRegion⟩ := found item inRest
          exact ⟨other, List.mem_cons_of_mem kept isKept, sameRegion⟩

theorem dropRepeats_pairwise {items : List α}
    (sorted : items.Pairwise fun left right => (region left).isAtOrBefore (region right)) :
    (dropRepeats region items).Pairwise fun left right =>
      (region left).IsBefore (region right) := by
  cases items with
  | nil => exact .nil
  | cons head tail => exact (dropRepeatsAfter_of_sorted sorted).1

/-- Where the regions differ nothing is dropped. -/
theorem dropRepeats_eq_self {items : List α}
    (increasing : items.Pairwise fun left right => (region left).IsBefore (region right)) :
    dropRepeats region items = items := by
  have afterKept (kept : α) (items : List α)
      (increasing : (kept :: items).Pairwise fun left right =>
        (region left).IsBefore (region right)) :
      dropRepeatsAfter region kept items = items := by
    induction items generalizing kept with
    | nil => rfl
    | cons head tail inductionHypothesis =>
        obtain ⟨before, later⟩ := List.pairwise_cons.mp increasing
        rw [dropRepeatsAfter, if_neg (before head List.mem_cons_self).ne.symm,
          inductionHypothesis head later]
  cases items with
  | nil => rfl
  | cons head tail => rw [dropRepeats, afterKept head tail increasing]

/-- There is one way to put items of different regions in order. -/
theorem sortByRegion_eq_of_perm {items sorted : List α} (same : items.Perm sorted)
    (increasing : sorted.Pairwise fun left right => (region left).IsBefore (region right)) :
    sortByRegion region items = sorted := by
  have injective : ∀ left ∈ sorted, ∀ right ∈ sorted, region left = region right →
      left = right := by
    intro left isLeft right isRight
    refine List.Pairwise.forall_of_forall_of_flip (l := sorted)
      (R := fun left right => region left = region right → left = right) ?_ ?_ ?_ isLeft isRight
    · exact fun _ _ _ => rfl
    · exact increasing.imp fun before equal => absurd equal before.ne
    · exact increasing.imp fun before equal => absurd equal.symm before.ne
  have reordered : (sortByRegion region items).Perm sorted :=
    (List.mergeSort_perm items _).trans same
  refine List.Perm.eq_of_pairwise ?_ (sortByRegion_pairwise items)
    (increasing.imp Region.IsBefore.isAtOrBefore) reordered
  intro left right isLeft isRight ordered ordered'
  refine injective left (reordered.mem_iff.mp isLeft) right isRight ?_
  by_cases equal : region left = region right
  · exact equal
  · have before := Region.isBefore_of_isAtOrBefore ordered (Ne.symm equal)
    have after := Region.isBefore_of_isAtOrBefore ordered' equal
    exact absurd rfl (before.trans after).ne

/-- Two lists in the strict order of their regions are one when they have the same items. -/
theorem eq_of_mem_iff_of_increasing {items others : List α}
    (increasing : items.Pairwise fun left right => (region left).IsBefore (region right))
    (increasing' : others.Pairwise fun left right => (region left).IsBefore (region right))
    (same : ∀ item, item ∈ items ↔ item ∈ others) : items = others := by
  have distinct {items : List α}
      (increasing : items.Pairwise fun left right => (region left).IsBefore (region right)) :
      items.Nodup :=
    increasing.imp fun before equal => before.ne (congrArg region equal)
  have reordered : items.Perm others :=
    (List.perm_ext_iff_of_nodup (distinct increasing) (distinct increasing')).mpr same
  rw [← sortByRegion_eq_of_perm (List.Perm.refl items) increasing,
    sortByRegion_eq_of_perm reordered increasing']

/-! ## The first item of a region -/

/-- Sorting keeps the order of the items of one region. -/
theorem filter_sortByRegion (items : List α) (wanted : Region) :
    (sortByRegion region items).filter (fun item => region item = wanted) =
      items.filter fun item => region item = wanted := by
  have ofRegion {item : α} (kept : item ∈ items.filter fun item => region item = wanted) :
      region item = wanted :=
    of_decide_eq_true (List.mem_filter.mp kept).2
  have ordered : (items.filter fun item => region item = wanted).Pairwise fun left right =>
      (region left).isAtOrBefore (region right) := by
    refine List.pairwise_of_forall_mem_list fun left isLeft right isRight => ?_
    rw [ofRegion isLeft, ofRegion isRight]
    exact wanted.isAtOrBefore_refl
  have inOrder : (items.filter fun item => region item = wanted).Sublist
      (sortByRegion region items) := by
    apply List.sublist_mergeSort
    · exact fun first second third => Region.isAtOrBefore_trans
    · exact fun left right => Region.isAtOrBefore_total (region left) (region right)
    · exact ordered
    · exact List.filter_sublist
  have onlyThese := inOrder.filter fun item => region item = wanted
  simp only [List.filter_filter, Bool.and_self] at onlyThese
  refine (onlyThese.eq_of_length ?_).symm
  exact ((List.mergeSort_perm items _).filter _).length_eq.symm

/-- Whatever order the items had, those of one region still have it. -/
theorem sortByRegion_pairwise_of_pairwise {items : List α} {before : α → α → Prop}
    (inOrder : items.Pairwise before) :
    (sortByRegion region items).Pairwise fun left right =>
      (region left).IsBefore (region right) ∨ region left = region right ∧ before left right := by
  rw [List.pairwise_iff_forall_sublist]
  intro left right isPair
  by_cases same : region right = region left
  · refine .inr ⟨same.symm, ?_⟩
    have ofRegion := isPair.filter fun item => region item = region left
    rw [filter_sortByRegion, List.filter_eq_self.mpr (by simp [same])] at ofRegion
    exact List.pairwise_iff_forall_sublist.mp inOrder (ofRegion.trans List.filter_sublist)
  · have ordered := List.pairwise_iff_forall_sublist.mp (sortByRegion_pairwise items) isPair
    exact .inl (Region.isBefore_of_isAtOrBefore ordered same)

theorem find?_sortByRegion (items : List α) (wanted : Region) :
    (sortByRegion region items).find? (fun item => region item = wanted) =
      items.find? fun item => region item = wanted := by
  rw [← List.head?_filter, filter_sortByRegion, List.head?_filter]

/-- Of the items of a region the first is not dropped. -/
theorem find?_dropRepeats (items : List α) (wanted : Region) :
    (dropRepeats region items).find? (fun item => region item = wanted) =
      items.find? fun item => region item = wanted := by
  have afterKept (kept : α) (items : List α) :
      (kept :: dropRepeatsAfter region kept items).find? (fun item => region item = wanted) =
        (kept :: items).find? fun item => region item = wanted := by
    induction items generalizing kept with
    | nil => rfl
    | cons head tail inductionHypothesis =>
        rw [dropRepeatsAfter]
        by_cases same : region head = region kept
        · rw [if_pos same, inductionHypothesis, List.find?_cons, List.find?_cons,
            List.find?_cons, same]
          cases decide (region kept = wanted) <;> rfl
        · rw [if_neg same, List.find?_cons, inductionHypothesis]
          rfl
  cases items with
  | nil => rfl
  | cons head tail => exact afterKept head tail

/-- An item is kept when it is the first with its region. -/
theorem mem_dropRepeats_iff {items : List α} {item : α} :
    item ∈ dropRepeats region (sortByRegion region items) ↔
      items.find? (fun other => region other = region item) = some item := by
  have increasing : (dropRepeats region (sortByRegion region items)).Pairwise fun left right =>
      (region left).IsBefore (region right) :=
    dropRepeats_pairwise (sortByRegion_pairwise items)
  rw [← find?_sortByRegion, ← find?_dropRepeats]
  refine ⟨fun kept => ?_, fun found => List.mem_of_find?_eq_some found⟩
  obtain ⟨front, back, split⟩ := List.append_of_mem kept
  rw [split] at increasing ⊢
  rw [List.find?_eq_some_iff_append]
  refine ⟨decide_eq_true rfl, front, back, rfl, fun earlier inFront => ?_⟩
  have before := (List.pairwise_append.mp increasing).2.2 earlier inFront item List.mem_cons_self
  rw [Bool.not_eq_true', decide_eq_false_iff_not]
  exact before.ne

/-! ## Items made from others -/

/-- Items that take their regions from others are sorted as the others are. -/
theorem sortByRegion_map {β : Type} (image : β → α) (items : List β) :
    sortByRegion region (items.map image) =
      (sortByRegion (fun item => region (image item)) items).map image := by
  refine (List.map_mergeSort ?_).symm
  exact fun _ _ _ _ => rfl

theorem dropRepeats_map {β : Type} (image : β → α) (items : List β) :
    dropRepeats region (items.map image) =
      (dropRepeats (fun item => region (image item)) items).map image := by
  have afterKept (kept : β) (items : List β) :
      dropRepeatsAfter region (image kept) (items.map image) =
        (dropRepeatsAfter (fun item => region (image item)) kept items).map image := by
    induction items generalizing kept with
    | nil => rfl
    | cons head tail inductionHypothesis =>
        rw [List.map_cons, dropRepeatsAfter, dropRepeatsAfter]
        split
        · exact inductionHypothesis kept
        · rw [inductionHypothesis head, List.map_cons]
  cases items with
  | nil => rfl
  | cons head tail => rw [List.map_cons, dropRepeats, afterKept, dropRepeats, List.map_cons]

/-- No region is lost. -/
theorem exists_mem_dropRepeats {items : List α}
    (sorted : items.Pairwise fun left right => (region left).isAtOrBefore (region right))
    {item : α} (found : item ∈ items) :
    ∃ other ∈ dropRepeats region items, region other = region item := by
  cases items with
  | nil => cases found
  | cons head tail => exact (dropRepeatsAfter_of_sorted sorted).2 item found

end

end SourceAnnotations
