import SourceAnnotations.Proofs.Fold.Braces

/-!
# Brace folds do not cross

Of two rows with braces one comes behind the other or lies in a child of it.  Behind it, its fold
starts no earlier than the other fold ends.  In a child that stands between the other's braces, its
fold is between them too; in a child that stands before or behind both braces, the folds are apart.
-/

namespace SourceAnnotations

/-- Two regions are apart or one contains the other, by their bytes. -/
def Region.DoNotCross (first second : Region) : Prop :=
  (first.endByte ≤ second.startByte ∨ second.endByte ≤ first.startByte) ∨
    (first.startByte ≤ second.startByte ∧ second.endByte ≤ first.endByte) ∨
      (second.startByte ≤ first.startByte ∧ first.endByte ≤ second.endByte)

namespace Cursor

variable {root : Node}

/-- What lies in a place has no rows below it when the place has none. -/
theorem Within.childless {outer inner : Cursor} (within : Within outer inner)
    (childless : outer.focus.children = []) : inner.focus.children = [] := by
  rcases Node.mem_preorder_iff.mp within.below with same | ⟨child, isChild, _⟩
  · rw [same, childless]
  · rw [childless] at isChild
    cases isChild

namespace HasBraces

variable {holder opening closing holder' opening' closing' : Cursor}
  (outer : HasBraces root holder opening closing)
  (inner : HasBraces root holder' opening' closing')
  (nested : root.IsNested) (plain : root.HasPlainBraces)
include outer inner nested plain

/-- A fold behind the closing brace of another starts no earlier than the other ends. -/
theorem closing_le_foldStart (behind : Precedes closing opening') :
    closing.row.endByte ≤ opening'.foldStart :=
  endByte_le_foldStart nested (inner.opening_isLeafOf plain)
    (behind.mem_leavesBefore (outer.closing_childless plain)) outer.closing_not_isTrivia

/-- A fold whose braces are between those of another lies within it. -/
theorem between (afterOpening : Precedes opening opening')
    (beforeClosing : Precedes closing' closing) :
    opening.foldStart ≤ opening'.foldStart ∧ closing'.row.endByte ≤ closing.row.endByte := by
  constructor
  · exact afterOpening.foldStart_le nested (outer.opening_isLeafOf plain)
      (inner.opening_isLeafOf plain) (outer.opening_childless plain)
  · have isLeaf := outer.closing_isLeafOf plain
    have ends := isLeaf.endByte_le nested
      (beforeClosing.mem_leavesBefore (inner.closing_childless plain))
    exact Nat.le_trans ends (nested.forward isLeaf.mem_preorder)

/-- In the tree a row with braces comes behind another or lies in a child of it.  Then their folds
are apart or the fold of the other contains that of the row. -/
theorem apart_or_between
    (order : Precedes holder holder' ∨ ∃ child ∈ holder.children, Within child holder') :
    (closing.row.endByte ≤ opening'.foldStart ∨ closing'.row.endByte ≤ opening.foldStart) ∨
      (opening.foldStart ≤ opening'.foldStart ∧ closing'.row.endByte ≤ closing.row.endByte) := by
  rcases order with behind | ⟨child, isChild, within⟩
  · have closed : Precedes closing opening' :=
      behind.within (within_child outer.isClosing) (within_child inner.isOpening)
    exact .inl (.inl (outer.closing_le_foldStart inner nested plain closed))
  · have parent : child.focus.children ≠ [] := by
      intro childless
      have isOpening := focus_mem_children inner.isOpening
      rw [within.childless childless] at isOpening
      cases isOpening
    have opens := within.trans (within_child inner.isOpening)
    have closes := within.trans (within_child inner.isClosing)
    rcases eq_or_precedes isChild outer.isOpening with rfl | beforeOpening | afterOpening
    · exact absurd (outer.opening_childless plain) parent
    · have closed : Precedes closing' opening := beforeOpening.within closes (Within.refl _)
      exact .inl (.inr (inner.closing_le_foldStart outer nested plain closed))
    · rcases eq_or_precedes isChild outer.isClosing with rfl | beforeClosing | afterClosing
      · exact absurd (outer.closing_childless plain) parent
      · exact .inr (outer.between inner nested plain (afterOpening.within (Within.refl _) opens)
          (beforeClosing.within closes (Within.refl _)))
      · have closed : Precedes closing opening' := afterClosing.within (Within.refl _) opens
        exact .inl (.inl (outer.closing_le_foldStart inner nested plain closed))

end HasBraces

/-- The braces of two rows, whichever comes first in the tree. -/
theorem HasBraces.apart_or_nested {holder opening closing holder' opening' closing' : Cursor}
    (first : HasBraces root holder opening closing)
    (second : HasBraces root holder' opening' closing')
    (nested : root.IsNested) (plain : root.HasPlainBraces) :
    (closing.row.endByte ≤ opening'.foldStart ∨ closing'.row.endByte ≤ opening.foldStart) ∨
      (opening.foldStart ≤ opening'.foldStart ∧ closing'.row.endByte ≤ closing.row.endByte) ∨
        (opening'.foldStart ≤ opening.foldStart ∧ closing.row.endByte ≤ closing'.row.endByte) := by
  have order : holder = holder' ∨
      (Precedes holder holder' ∨ ∃ child ∈ holder.children, Within child holder') ∨
        (Precedes holder' holder ∨ ∃ child ∈ holder'.children, Within child holder) := by
    refine List.Pairwise.forall_of_forall_of_flip (l := places (fun _ => false) root [])
      (R := fun first second => first = second ∨
        (Precedes first second ∨ ∃ child ∈ first.children, Within child second) ∨
          (Precedes second first ∨ ∃ child ∈ second.children, Within child first))
      ?_ ?_ ?_ first.isPlace second.isPlace
    · exact fun _ _ => .inl rfl
    · exact (places_pairwise root []).imp fun ordered => .inr (.inl ordered)
    · exact (places_pairwise root []).imp fun ordered => .inr (.inr ordered)
  rcases order with rfl | forward | backward
  · have same := Option.some.inj (first.found.symm.trans second.found)
    obtain ⟨rfl, rfl⟩ := Prod.mk.inj same
    exact .inr (.inl ⟨Nat.le_refl _, Nat.le_refl _⟩)
  · rcases first.apart_or_between second nested plain forward with apart | between
    · exact .inl apart
    · exact .inr (.inl between)
  · rcases second.apart_or_between first nested plain backward with apart | between
    · exact .inl apart.symm
    · exact .inr (.inr between)

end Cursor

/-- The bytes of a region are clamped to the text, which keeps their order. -/
theorem LineIndex.doNotCross_region {index : LineIndex} {start stop start' stop' : Nat}
    (forward : start ≤ stop) (forward' : start' ≤ stop')
    (apartOrNested : (stop ≤ start' ∨ stop' ≤ start) ∨
      (start ≤ start' ∧ stop' ≤ stop) ∨ (start' ≤ start ∧ stop ≤ stop')) :
    (index.region start stop).DoNotCross (index.region start' stop') := by
  simp only [Region.DoNotCross, region, Nat.max_eq_left forward, Nat.max_eq_left forward']
  omega

/-- Any two folds between braces are apart or one contains the other. -/
theorem brace_folds_do_not_cross (tree : SyntaxTree) (comments : List Comment)
    (config : AnnotationConfig) (nested : tree.root.IsNested) (plain : tree.root.HasPlainBraces) :
    ∃ folds, tree.foldings comments config .live = .ok folds ∧
      ∀ first ∈ folds, ∀ second ∈ folds, first.kind.isOfBraces → second.kind.isOfBraces →
        first.region.DoNotCross second.region := by
  refine ⟨_, tree.foldings_eq comments config, ?_⟩
  intro first inFolds second inFolds' ofBraces ofBraces'
  obtain ⟨multiLine, produced⟩ := SyntaxTree.produces_of_mem_normalizeFolds inFolds
  obtain ⟨multiLine', produced'⟩ := SyntaxTree.produces_of_mem_normalizeFolds inFolds'
  obtain ⟨_, opening, closing, braces, region⟩ := tree.exists_hasBraces produced ofBraces
  obtain ⟨_, opening', closing', braces', region'⟩ := tree.exists_hasBraces produced' ofBraces'
  rw [region] at multiLine ⊢
  rw [region'] at multiLine' ⊢
  have ordered := braces.ordered plain nested (braces.precedes plain nested multiLine)
  have ordered' := braces'.ordered plain nested (braces'.precedes plain nested multiLine')
  exact LineIndex.doNotCross_region ordered.2.2 ordered'.2.2
    (braces.apart_or_nested braces' nested plain)

/-- A class in a namespace. -/
def nestedDeclarations : SyntaxTree :=
  .ofText "namespace N\n\x7b\n class A\n \x7b\n \x7d\n\x7d\n".toList <|
    .mk ⟨"compilation_unit", true, false, false, false, 0, 31, none⟩
      [.mk ⟨"namespace_declaration", true, false, false, false, 0, 30, none⟩
        [.mk ⟨"namespace", false, false, false, false, 0, 9, none⟩ [],
          .mk ⟨"identifier", true, false, false, false, 10, 11, some "name"⟩ [],
          .mk ⟨"declaration_list", true, false, false, false, 12, 30, some "body"⟩
            [.mk ⟨"\x7b", false, false, false, false, 12, 13, none⟩ [],
              .mk ⟨"class_declaration", true, false, false, false, 15, 28, none⟩
                [.mk ⟨"class", false, false, false, false, 15, 20, none⟩ [],
                  .mk ⟨"identifier", true, false, false, false, 21, 22, some "name"⟩ [],
                  .mk ⟨"declaration_list", true, false, false, false, 24, 28, some "body"⟩
                    [.mk ⟨"\x7b", false, false, false, false, 24, 25, none⟩ [],
                      .mk ⟨"\x7d", false, false, false, false, 27, 28, none⟩ []]],
              .mk ⟨"\x7d", false, false, false, false, 29, 30, none⟩ []]]]

/-- The fold of the class lies within that of the namespace. -/
theorem brace_folds_do_not_cross_nested :
    nestedDeclarations.root.IsNested ∧ nestedDeclarations.root.HasPlainBraces ∧
      ∃ folds, nestedDeclarations.foldings [] .default .live = .ok folds ∧
        (folds.map fun fold => (fold.kind, fold.region.startByte, fold.region.endByte)) =
          [(.namespaceBody, 11, 30), (.typeBody, 22, 28)] ∧
        ∀ first ∈ folds, ∀ second ∈ folds, first.kind.isOfBraces → second.kind.isOfBraces →
          first.region.DoNotCross second.region := by
  have nested : nestedDeclarations.root.IsNested := by decide +kernel
  have plain : nestedDeclarations.root.HasPlainBraces := by decide +kernel
  obtain ⟨folds, made, apart⟩ :=
    brace_folds_do_not_cross nestedDeclarations [] .default nested plain
  refine ⟨nested, plain, folds, made, ?_, apart⟩
  have found := nestedDeclarations.foldings_eq [] .default
  rw [made] at found
  have inOrder : sortByRegion Fold.region (nestedDeclarations.foundFolds [] .default) =
      nestedDeclarations.foundFolds [] .default :=
    List.mergeSort_of_pairwise (by decide +kernel)
  rw [Except.ok.inj found, normalizeFolds, inOrder]
  decide +kernel

end SourceAnnotations
