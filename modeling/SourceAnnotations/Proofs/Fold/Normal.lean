import SourceAnnotations.Fold.Basic
import SourceAnnotations.Proofs.Region.Order
import SourceAnnotations.Proofs.Region.Span

/-!
# Normalised folds

Normalising puts the folds in the order of their regions and keeps one fold for each region that
spans lines, the first of them.  It makes no folds of its own.  So what stands behind other folds
cannot take the place of any of them, and whatever is done to all folds that leaves their regions as
they are can be done to the normalised ones.
-/

namespace SourceAnnotations

variable {fold : Fold} {folds : List Fold}

theorem normalizeFolds_pairwise (folds : List Fold) :
    (normalizeFolds folds).Pairwise fun first second => first.region.IsBefore second.region :=
  (dropRepeats_pairwise (sortByRegion_pairwise folds)).filter _

theorem mem_of_mem_normalizeFolds (normal : fold ∈ normalizeFolds folds) :
    fold ∈ folds ∧ fold.region.isMultiLine := by
  obtain ⟨kept, multiLine⟩ := List.mem_filter.mp normal
  exact ⟨mem_sortByRegion.mp (mem_of_mem_dropRepeats kept), multiLine⟩

theorem exists_mem_normalizeFolds (found : fold ∈ folds) (multiLine : fold.region.isMultiLine) :
    ∃ other ∈ normalizeFolds folds, other.region = fold.region := by
  obtain ⟨other, kept, same⟩ :=
    exists_mem_dropRepeats (sortByRegion_pairwise folds) (mem_sortByRegion.mpr found)
  refine ⟨other, List.mem_filter.mpr ⟨kept, ?_⟩, same⟩
  rw [same, multiLine]

/-- A fold is kept when it spans lines and is the first with its region. -/
theorem mem_normalizeFolds_iff :
    fold ∈ normalizeFolds folds ↔
      fold.region.isMultiLine ∧
        folds.find? (fun other => other.region = fold.region) = some fold := by
  rw [normalizeFolds, List.mem_filter, mem_dropRepeats_iff, and_comm]

/-- Folds that stand behind others of which none is wanted do not disturb the wanted ones. -/
theorem filter_normalizeFolds_append {front back : List Fold} {wanted : Fold → Bool}
    (inFront : ∀ fold ∈ front, wanted fold) (notInBack : ∀ fold ∈ back, ¬ wanted fold) :
    (normalizeFolds (front ++ back)).filter wanted = normalizeFolds front := by
  refine eq_of_mem_iff_of_increasing ((normalizeFolds_pairwise _).filter _)
    (normalizeFolds_pairwise _) fun fold => ?_
  rw [List.mem_filter, mem_normalizeFolds_iff, mem_normalizeFolds_iff, List.find?_append,
    Option.or_eq_some_iff, and_assoc]
  refine and_congr_right fun _ => ⟨?_, fun found => ⟨.inl found, ?_⟩⟩
  · rintro ⟨found | ⟨_, found⟩, isWanted⟩
    · exact found
    · exact absurd isWanted (notInBack fold (List.mem_of_find?_eq_some found))
  · exact inFront fold (List.mem_of_find?_eq_some found)

/-- Folds that take their regions from other items are normalised as the items are. -/
theorem normalizeFolds_map {α : Type} {region : α → Region} {image : α → Fold}
    (keeps : ∀ item, (image item).region = region item) (items : List α) :
    normalizeFolds (items.map image) =
      ((dropRepeats region (sortByRegion region items)).filter fun item =>
        (region item).isMultiLine).map image := by
  have same : (fun item => (image item).region) = region := funext keeps
  rw [normalizeFolds, sortByRegion_map, dropRepeats_map, List.filter_map, same]
  congr 2
  exact funext fun item => congrArg Region.isMultiLine (keeps item)

/-! ## Normal forms -/

/-- Folds in the order of their regions that span lines are normal. -/
theorem normalizeFolds_eq_self
    (increasing : folds.Pairwise fun first second => first.region.IsBefore second.region)
    (multiLine : ∀ fold ∈ folds, fold.region.isMultiLine) : normalizeFolds folds = folds := by
  rw [normalizeFolds, sortByRegion_eq_of_perm (List.Perm.refl folds) increasing,
    dropRepeats_eq_self increasing]
  exact List.filter_eq_self.mpr multiLine

/-- Normalised folds have the regions that span lines. -/
theorem mem_map_region_normalizeFolds_iff {region : Region} :
    region ∈ (normalizeFolds folds).map Fold.region ↔
      region ∈ folds.map Fold.region ∧ region.isMultiLine := by
  simp only [List.mem_map]
  constructor
  · rintro ⟨fold, normal, rfl⟩
    obtain ⟨found, multiLine⟩ := mem_of_mem_normalizeFolds normal
    exact ⟨⟨fold, found, rfl⟩, multiLine⟩
  · rintro ⟨⟨fold, found, rfl⟩, multiLine⟩
    exact exists_mem_normalizeFolds found multiLine

/-- Folds that share a region stand in the same order in both lists. -/
def SameOrderByRegion (folds others : List Fold) : Prop :=
  ∀ region : Region,
    folds.filter (fun fold => fold.region = region) =
      others.filter fun fold => fold.region = region

section

variable {others : List Fold}

/-- Only the regions that occur need to be looked at. -/
theorem sameOrderByRegion_iff :
    SameOrderByRegion folds others ↔
      ∀ fold ∈ folds ++ others,
        folds.filter (fun other => other.region = fold.region) =
          others.filter fun other => other.region = fold.region := by
  constructor
  · intro same fold _
    exact same fold.region
  · intro same region
    by_cases occurs : ∃ fold ∈ folds ++ others, fold.region = region
    · obtain ⟨fold, found, rfl⟩ := occurs
      exact same fold found
    · have inNone (fold : Fold) (found : fold ∈ folds ++ others) : fold.region ≠ region :=
        fun isRegion => occurs ⟨fold, found, isRegion⟩
      rw [List.filter_eq_nil_iff.mpr, List.filter_eq_nil_iff.mpr]
      · intro fold found
        simpa using inNone fold (List.mem_append_right folds found)
      · intro fold found
        simpa using inNone fold (List.mem_append_left others found)

instance : Decidable (SameOrderByRegion folds others) :=
  decidable_of_iff _ sameOrderByRegion_iff.symm

theorem map_region_normalizeFolds_of_perm (same : folds.Perm others) :
    (normalizeFolds others).map Fold.region = (normalizeFolds folds).map Fold.region := by
  have increasing (folds : List Fold) :
      ((normalizeFolds folds).map Fold.region).Pairwise fun first second =>
        (id first).IsBefore (id second) := by
    rw [List.pairwise_map]
    exact normalizeFolds_pairwise folds
  apply eq_of_mem_iff_of_increasing (increasing others) (increasing folds)
  intro region
  rw [mem_map_region_normalizeFolds_iff, mem_map_region_normalizeFolds_iff,
    (same.map Fold.region).mem_iff]

/-- Which fold of a region comes first is all that normalising looks at. -/
theorem normalizeFolds_congr (same : SameOrderByRegion folds others) :
    normalizeFolds others = normalizeFolds folds := by
  apply eq_of_mem_iff_of_increasing (normalizeFolds_pairwise others)
    (normalizeFolds_pairwise folds)
  intro fold
  rw [mem_normalizeFolds_iff, mem_normalizeFolds_iff, ← List.head?_filter, ← List.head?_filter,
    same fold.region]

end

/-- Normalised folds are the first ones of the regions that span lines, in the order of the regions.
So normalising them again changes nothing, and the order of the folds matters only among those that
share a region. -/
theorem normal_form_is_canonical (folds : List Fold) :
    (normalizeFolds folds).Pairwise (fun first second => first.region.IsBefore second.region) ∧
      (∀ fold ∈ normalizeFolds folds, fold.region.isMultiLine ∧
        folds.find? (fun other => other.region = fold.region) = some fold) ∧
      (∀ fold ∈ folds, fold.region.isMultiLine →
        ∃ other ∈ normalizeFolds folds, other.region = fold.region) ∧
      normalizeFolds (normalizeFolds folds) = normalizeFolds folds ∧
      ∀ others : List Fold, folds.Perm others →
        (normalizeFolds others).map Fold.region = (normalizeFolds folds).map Fold.region ∧
          (SameOrderByRegion folds others → normalizeFolds others = normalizeFolds folds) := by
  have idempotent : normalizeFolds (normalizeFolds folds) = normalizeFolds folds := by
    apply normalizeFolds_eq_self (normalizeFolds_pairwise folds)
    intro fold normal
    exact (mem_of_mem_normalizeFolds normal).2
  refine ⟨normalizeFolds_pairwise folds, ?_, ?_, idempotent, ?_⟩
  · intro fold normal
    exact mem_normalizeFolds_iff.mp normal
  · intro fold found multiLine
    exact exists_mem_normalizeFolds found multiLine
  · intro others same
    exact ⟨map_region_normalizeFolds_of_perm same, normalizeFolds_congr⟩

/-- Two folds share a region, and the fold between them comes first in the normal form.  With the two
exchanged the regions stay, and with the other one moved all stays. -/
theorem normal_form_is_canonical_shared_region :
    let shared : Region := ⟨⟨4, 0⟩, ⟨9, 1⟩, 40, 90⟩
    let first := Fold.plain shared .typeBody
    let second := Fold.plain shared .member
    let early := Fold.plain ⟨⟨0, 0⟩, ⟨2, 1⟩, 0, 20⟩ .imports
    let inOneLine := Fold.plain ⟨⟨6, 0⟩, ⟨6, 1⟩, 60, 61⟩ .member
    let folds := [first, early, second, inOneLine]
    early ∈ normalizeFolds folds ∧
      folds.find? (fun other => other.region = early.region) = some early ∧
      (∃ other ∈ normalizeFolds folds, other.region = shared) ∧
      (normalizeFolds [second, early, first, inOneLine]).map Fold.region =
        (normalizeFolds folds).map Fold.region ∧
      normalizeFolds [early, inOneLine, first, second] = normalizeFolds folds := by
  intro shared first second early inOneLine folds
  obtain ⟨_, normal, kept, _, reordered⟩ := normal_form_is_canonical folds
  have isNormal : early ∈ normalizeFolds folds := mem_normalizeFolds_iff.mpr (by decide)
  refine ⟨isNormal, (normal early isNormal).2, ?_, ?_, ?_⟩
  · exact kept second (by decide) (by decide)
  · exact (reordered [second, early, first, inOneLine] (by decide)).1
  · exact (reordered [early, inOneLine, first, second] (by decide)).2 (by decide)

end SourceAnnotations
