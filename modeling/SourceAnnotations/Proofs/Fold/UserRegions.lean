import Mathlib.Data.List.DropRight
import Mathlib.Data.List.Forall2
import SourceAnnotations.Proofs.Fold.Crossing
import SourceAnnotations.Proofs.Fold.Heights
import SourceAnnotations.Proofs.Fold.Kinds
import SourceAnnotations.Proofs.Text.Bytes
import SourceAnnotations.Proofs.Tree.Outermost

/-!
# Folds of region directives

The directives that the walk comes to are those below no other directive.  The regions that it keeps
open are those of the directives without a partner so far, so it makes a fold at each directive that
has a partner before it, and the folds are those of the pairs.
-/

namespace SourceAnnotations

/-! ## Trimmed texts -/

namespace Text

variable {c : Char} {text : Text}

theorem trimStart_append_cons {blanks : Text} (areBlank : ∀ b ∈ blanks, isWhiteSpace b)
    (proper : isWhiteSpace c = false) (rest : Text) :
    trimStart (blanks ++ c :: rest) = c :: rest := by
  rw [trimStart, List.dropWhile_append_of_pos areBlank, List.dropWhile_cons, proper]
  rfl

theorem trimEnd_append_cons (front : Text) (proper : isWhiteSpace c = false) (rest : Text) :
    trimEnd (front ++ c :: rest) = front ++ c :: trimEnd rest := by
  have stays : (c :: front.reverse).dropWhile isWhiteSpace = c :: front.reverse := by
    rw [List.dropWhile_cons, proper]
    rfl
  rw [trimEnd, dropEndWhile, List.reverse_append, List.reverse_cons, List.append_assoc,
    List.singleton_append, List.dropWhile_append, stays, trimEnd, dropEndWhile]
  split
  · next empty =>
    rw [List.isEmpty_iff.mp empty, List.reverse_cons, List.reverse_reverse, List.reverse_nil]
  · rw [List.reverse_append, List.reverse_cons, List.reverse_reverse, List.append_assoc,
      List.singleton_append]

theorem trimEnd_trimEnd (text : Text) : trimEnd (trimEnd text) = trimEnd text :=
  List.rdropWhile_idempotent isWhiteSpace text

theorem trim_trimEnd (text : Text) : trim (trimEnd text) = trim text := by
  cases start : text.dropWhile isWhiteSpace with
  | nil =>
      have blank : ∀ c ∈ text, isWhiteSpace c := List.dropWhile_eq_nil_iff.mp start
      have ended : trimEnd text = [] := List.rdropWhile_eq_nil_iff.mpr blank
      rw [ended, trim, trim, trimStart, trimStart, start, List.dropWhile_nil]
  | cons c rest =>
      have split : text.takeWhile isWhiteSpace ++ c :: rest = text := by
        rw [← start, List.takeWhile_append_dropWhile]
      have blank : ∀ b ∈ text.takeWhile isWhiteSpace, isWhiteSpace b :=
        fun b taken => List.mem_takeWhile_imp taken
      have proper : isWhiteSpace c = false := by
        have stops := List.head?_dropWhile_not isWhiteSpace text
        rw [start] at stops
        simpa using stops
      have ended : trimEnd (c :: rest) = c :: trimEnd rest := trimEnd_append_cons [] proper rest
      rw [← split, trimEnd_append_cons _ proper, trim, trim, trimStart_append_cons blank proper,
        trimStart_append_cons blank proper, ← ended, trimEnd_trimEnd]

theorem byteSize_trimEnd_le (text : Text) : byteSize (trimEnd text) ≤ byteSize text := by
  obtain ⟨dropped, whole⟩ : trimEnd text <+: text := List.rdropWhile_prefix isWhiteSpace text
  conv_rhs => rw [← whole]
  rw [byteSize_append]
  exact Nat.le_add_right _ _

end Text

/-! ## Names and ends -/

theorem dropRegionWords_eq_self {text : Text} (apart : ∀ c ∈ text.head?, isWhiteSpace c) :
    dropRegionWords text = text := by
  unfold dropRegionWords
  split
  · exact absurd (apart 'r' rfl) (by decide)
  · rfl

/-- Of what the directive reads only the end is trimmed, because its word ends with a letter. -/
theorem trim_directive (blanks rest : Text) :
    Text.trim ('#' :: (blanks ++ "region".toList ++ rest)) =
      '#' :: (blanks ++ 'r' :: (['e', 'g', 'i', 'o', 'n'] ++ rest.trimEnd)) := by
  have word : "region".toList = 'r' :: ['e', 'g', 'i', 'o'] ++ ['n'] := rfl
  have started : Text.trimStart ('#' :: (blanks ++ "region".toList ++ rest)) =
      '#' :: (blanks ++ "region".toList ++ rest) :=
    Text.trimStart_append_cons (List.forall_mem_nil _) (by decide) _
  have ended := Text.trimEnd_append_cons ('#' :: (blanks ++ 'r' :: ['e', 'g', 'i', 'o']))
    (show isWhiteSpace 'n' = false by decide) rest
  rw [Text.trim, started, word]
  simpa using ended

/-- There is one mark only, because neither blanks nor words begin with another. -/
theorem dropWhile_mark {blanks : Text} (areBlank : ∀ c ∈ blanks, isWhiteSpace c) (rest : Text) :
    ('#' :: (blanks ++ 'r' :: rest)).dropWhile (· = '#') = blanks ++ 'r' :: rest := by
  rw [List.dropWhile_cons, if_pos (decide_eq_true rfl)]
  cases blanks with
  | nil => rfl
  | cons blank others =>
      have isBlank := areBlank blank List.mem_cons_self
      rw [List.cons_append, List.dropWhile_cons, if_neg]
      intro isMark
      rw [of_decide_eq_true isMark] at isBlank
      exact absurd isBlank (by decide)

/-- The name of a region is what follows the word, when the directive reads like one. -/
theorem regionName_eq {blanks rest : Text} (areBlank : ∀ c ∈ blanks, isWhiteSpace c)
    (apart : ∀ c ∈ rest.head?, isWhiteSpace c) :
    regionName ('#' :: (blanks ++ "region".toList ++ rest)) =
      if rest.trim = [] then "#region" else String.ofList rest.trim := by
  have stillApart : ∀ c ∈ rest.trimEnd.head?, isWhiteSpace c := by
    obtain ⟨dropped, whole⟩ : rest.trimEnd <+: rest := List.rdropWhile_prefix isWhiteSpace rest
    intro c isHead
    refine apart c ?_
    rw [← whole, List.head?_append, Option.mem_def.mp isHead]
    rfl
  have behind : dropRegionWords ('r' :: (['e', 'g', 'i', 'o', 'n'] ++ rest.trimEnd)) =
      rest.trimEnd :=
    dropRegionWords_eq_self stillApart
  rw [regionName, trim_directive, dropWhile_mark areBlank,
    Text.trimStart_append_cons areBlank (by decide), behind, Text.trim_trimEnd]
  cases rest.trim <;> rfl

/-- Whether a row begins or ends a region. -/
def Row.isRegionDirective (row : Row) : Bool :=
  Kinds.regionDirectives.contains row.kind || Kinds.endRegionDirectives.contains row.kind

namespace SyntaxTree

variable {tree : SyntaxTree} {config : AnnotationConfig}

theorem directiveEnd_le (tree : SyntaxTree) {directive : Node}
    (forward : directive.row.startByte ≤ directive.row.endByte) :
    tree.directiveEnd directive ≤ directive.row.endByte := by
  rw [directiveEnd, nodeText]
  cases sliced : tree.text.slice? directive.row.startByte directive.row.endByte with
  | none => exact forward
  | some middle =>
      obtain ⟨front, rest, _, start, stop⟩ := Text.slice?_eq_some_iff.mp sliced
      have shorter := middle.byteSize_trimEnd_le
      rw [Option.getD_some, ← stop, start]
      omega

/-! ## Folds of pairs -/

/-- A fold reaches from the start of one directive to the end of the visible text of another, and is
named by what follows the word in the first. -/
structure IsRegionFold (tree : SyntaxTree) (opening closing : Node) (fold : Fold) : Prop where
  kind : fold.kind = .userRegion
  region : fold.region = tree.index.region opening.row.startByte
    (closing.row.startByte + Text.byteSize (tree.nodeText closing).trimEnd)
  name : ∀ blanks rest : Text, (∀ c ∈ blanks, isWhiteSpace c) →
    (∀ c ∈ rest.head?, isWhiteSpace c) →
      tree.nodeText opening = '#' :: (blanks ++ "region".toList ++ rest) →
        fold.name = if rest.trim = [] then "#region" else String.ofList rest.trim
  startsOpen : fold.isCollapsedByDefault = false

theorem isRegionFold_fold (tree : SyntaxTree) (opening closing : Node) :
    tree.IsRegionFold opening closing ((tree.openRegion opening).fold tree closing) where
  kind := rfl
  region := rfl
  name blanks rest areBlank apart reads := by
    rw [← regionName_eq areBlank apart, ← reads]
    rfl
  startsOpen := rfl

/-- A fold is that of the directives at two positions. -/
def HasRegionFold (tree : SyntaxTree) (directives : List Node) (pair : Nat × Nat) (fold : Fold) :
    Prop :=
  ∃ opening closing, directives[pair.1]? = some opening ∧ directives[pair.2]? = some closing ∧
    tree.IsRegionFold opening closing fold

theorem HasRegionFold.append {directives : List Node} {pair : Nat × Nat} {fold : Fold}
    (hasFold : tree.HasRegionFold directives pair fold) (more : List Node) :
    tree.HasRegionFold (directives ++ more) pair fold := by
  obtain ⟨opening, closing, atFirst, atSecond, isFold⟩ := hasFold
  refine ⟨opening, closing, ?_, ?_, isFold⟩
  · rw [List.getElem?_append_left (List.getElem?_eq_some_iff.mp atFirst).1, atFirst]
  · rw [List.getElem?_append_left (List.getElem?_eq_some_iff.mp atSecond).1, atSecond]

/-- Some folds are those of the pairs among directives, in the order in which the pairs end. -/
def AreRegionFolds (tree : SyntaxTree) (directives : List Node) (folds : List Fold) : Prop :=
  ∃ pairs : List (Nat × Nat), pairs.Pairwise (fun earlier later => earlier.2 < later.2) ∧
    (∀ first second, (first, second) ∈ pairs ↔
      RegionDirectives.PairedAt directives first second) ∧
    List.Forall₂ (tree.HasRegionFold directives) pairs folds

namespace AreRegionFolds

open RegionDirectives

variable {directives : List Node} {last : Node} {folds : List Fold}

theorem nil : tree.AreRegionFolds [] [] :=
  ⟨[], .nil, fun _ _ => ⟨nofun, fun pair => absurd pair.lt_length (Nat.not_lt_zero _)⟩, .nil⟩

/-- A directive that makes no pair makes no fold. -/
theorem concat_of_idle (areFolds : tree.AreRegionFolds directives folds)
    (idle : ¬ (last.endsRegion ∧ ∃ opening opened, unclosed directives = opening :: opened)) :
    tree.AreRegionFolds (directives ++ [last]) folds := by
  obtain ⟨pairs, increasing, isPair, related⟩ := areFolds
  refine ⟨pairs, increasing, fun first second => ?_, ?_⟩
  · rw [isPair, pairedAt_concat_iff_of_idle idle]
  · exact related.imp fun _ _ hasFold => hasFold.append _

/-- A directive that ends the latest open region makes the fold of both. -/
theorem concat_of_ends (areFolds : tree.AreRegionFolds directives folds)
    (all : ∀ directive ∈ directives, directive.beginsRegion ∨ directive.endsRegion)
    {opening : Node} {opened : List Node} (latest : unclosed directives = opening :: opened)
    (ends : last.endsRegion) :
    tree.AreRegionFolds (directives ++ [last])
      (folds ++ [(tree.openRegion opening).fold tree last]) := by
  obtain ⟨pairs, increasing, isPair, related⟩ := areFolds
  obtain ⟨position, atPosition, isPair'⟩ := exists_pairedAt_concat_iff all latest ends
  have within := (List.getElem?_eq_some_iff.mp atPosition).1
  refine ⟨pairs ++ [(position, directives.length)], ?_, fun first second => ?_, ?_⟩
  · refine List.pairwise_append.mpr ⟨increasing, List.pairwise_singleton _ _, ?_⟩
    intro pair isEarlier new isNew
    rw [List.mem_singleton.mp isNew]
    exact ((isPair pair.1 pair.2).mp isEarlier).lt_length
  · rw [List.mem_append, List.mem_singleton, Prod.mk.injEq, isPair, isPair']
  · refine List.rel_append (related.imp fun _ _ hasFold => hasFold.append _) (.cons ?_ .nil)
    refine ⟨opening, last, ?_, List.getElem?_concat_length, tree.isRegionFold_fold opening last⟩
    rw [List.getElem?_append_left within, atPosition]

theorem exists_pairedAt (areFolds : tree.AreRegionFolds directives folds) {fold : Fold}
    (found : fold ∈ folds) :
    ∃ pair : Nat × Nat, PairedAt directives pair.1 pair.2 ∧
      tree.HasRegionFold directives pair fold := by
  obtain ⟨pairs, increasing, isPair, related⟩ := areFolds
  obtain ⟨pair, isListed, hasFold⟩ : ∃ pair ∈ pairs, tree.HasRegionFold directives pair fold := by
    clear increasing isPair
    induction related with
    | nil => cases found
    | @cons pair _ pairs _ hasFold _ inductionHypothesis =>
        rcases List.mem_cons.mp found with rfl | later
        · exact ⟨pair, List.mem_cons_self, hasFold⟩
        · obtain ⟨other, isLater, hasOther⟩ := inductionHypothesis later
          exact ⟨other, List.mem_cons_of_mem _ isLater, hasOther⟩
  exact ⟨pair, (isPair pair.1 pair.2).mp isListed, hasFold⟩

end AreRegionFolds

/-- The folds of user regions that are found at some places are those of the pairs among their
directives. -/
theorem areRegionFolds_scanned (places : List Cursor) :
    tree.AreRegionFolds (directives config places)
      ((tree.scanned config places).folds.filter fun fold => fold.kind = .userRegion) := by
  induction places using List.reverseRecOn with
  | nil => exact .nil
  | append_singleton places last inductionHypothesis =>
      rw [scanned_concat, visitFolds_eq, directives_concat]
      by_cases isDirective : last.isDirective config
      · rw [if_pos isDirective, if_pos isDirective]
        by_cases begins : last.focus.beginsRegion
        · rw [if_pos begins]
          refine inductionHypothesis.concat_of_idle fun ended => ?_
          rw [Node.not_beginsRegion ended.1] at begins
          cases begins
        · rw [if_neg begins, FoldScan.endRegion, (scanned_places places).1]
          cases latest : RegionDirectives.unclosed (directives config places) with
          | nil =>
              refine inductionHypothesis.concat_of_idle fun ended => ?_
              obtain ⟨_, _, _, open'⟩ := ended
              rw [latest] at open'
              cases open'
          | cons opening opened =>
              rw [Cursor.isDirective, Bool.and_eq_true, Bool.or_eq_true] at isDirective
              have ends : last.focus.endsRegion := isDirective.2.resolve_left begins
              have made := inductionHypothesis.concat_of_ends begins_or_ends_of_mem_directives
                latest ends
              rw [List.map_cons, List.filter_append]
              exact made
      · rw [if_neg isDirective, if_neg isDirective, List.append_nil, FoldScan.add,
          List.filter_append, filter_userRegions_rowFolds, List.append_nil]
        exact inductionHypothesis

/-! ## Directives of a tree -/

theorem directives_foldPlaces (tree : SyntaxTree) (foldsRegions : config.foldUserRegions) :
    directives config (tree.foldPlaces config) = tree.root.outermost Row.isRegionDirective := by
  have same : (fun cursor : Cursor => cursor.isDirective config) =
      fun cursor => cursor.row.isRegionDirective := by
    funext cursor
    rw [Cursor.isDirective, foldsRegions, Bool.true_and]
    rfl
  rw [directives, foldPlaces, same, Cursor.filter_places]
  · rfl
  · exact fun _ isWanted => isWanted
  · intro cursor _ closed unwanted
    rw [unwanted] at closed
    cases closed
  · exact List.forall_mem_nil _

section

variable {directives : List Node}

/-- In a tree without overlaps the folds of two pairs are nested as the pairs are. -/
theorem HasRegionFold.doNotCross {pair pair' : Nat × Nat} {fold other : Fold}
    (ordered : directives.Pairwise fun left right => left.row.endByte ≤ right.row.startByte)
    (forward : ∀ directive ∈ directives, directive.row.startByte ≤ directive.row.endByte)
    (hasFold : tree.HasRegionFold directives pair fold)
    (isPair : RegionDirectives.PairedAt directives pair.1 pair.2)
    (hasFold' : tree.HasRegionFold directives pair' other)
    (isPair' : RegionDirectives.PairedAt directives pair'.1 pair'.2) :
    fold.region.DoNotCross other.region := by
  obtain ⟨opening, closing, atFirst, atSecond, isFold⟩ := hasFold
  obtain ⟨opening', closing', atFirst', atSecond', isFold'⟩ := hasFold'
  have before {index later : Nat} {left right : Node} (less : index < later)
      (atIndex : directives[index]? = some left) (atLater : directives[later]? = some right) :
      left.row.endByte ≤ right.row.startByte := by
    obtain ⟨within, rfl⟩ := List.getElem?_eq_some_iff.mp atIndex
    obtain ⟨within', rfl⟩ := List.getElem?_eq_some_iff.mp atLater
    exact List.pairwise_iff_getElem.mp ordered index later within within' less
  have forwardAt {index : Nat} {directive : Node} (found : directives[index]? = some directive) :
      directive.row.startByte ≤ directive.row.endByte :=
    forward directive (List.mem_of_getElem? found)
  -- What the arithmetic below needs: either fold ends within its closing directive.
  have inOrder := before isPair.ordered atFirst atSecond
  have inOrder' := before isPair'.ordered atFirst' atSecond'
  have start := forwardAt atFirst
  have start' := forwardAt atFirst'
  have stop := tree.directiveEnd_le (forwardAt atSecond)
  have stop' := tree.directiveEnd_le (forwardAt atSecond')
  have visible : closing.row.startByte ≤ tree.directiveEnd closing := Nat.le_add_right _ _
  have visible' : closing'.row.startByte ≤ tree.directiveEnd closing' := Nat.le_add_right _ _
  rw [isFold.region, isFold'.region]
  refine LineIndex.doNotCross_region
    (show opening.row.startByte ≤ tree.directiveEnd closing by omega)
    (show opening'.row.startByte ≤ tree.directiveEnd closing' by omega) ?_
  change (tree.directiveEnd closing ≤ _ ∨ tree.directiveEnd closing' ≤ _) ∨
    (_ ∧ tree.directiveEnd closing' ≤ tree.directiveEnd closing) ∨
      (_ ∧ tree.directiveEnd closing ≤ tree.directiveEnd closing')
  rcases isPair.nested_or_apart isPair' with ⟨same, same'⟩ | (behind | ahead) |
    ⟨begins, ends⟩ | ⟨begins, ends⟩
  · rw [same, atFirst'] at atFirst
    rw [same', atSecond'] at atSecond
    obtain rfl := Option.some.inj atFirst
    obtain rfl := Option.some.inj atSecond
    exact .inr (.inl ⟨Nat.le_refl _, Nat.le_refl _⟩)
  · exact .inl (.inl (Nat.le_trans stop (before behind atSecond atFirst')))
  · exact .inl (.inr (Nat.le_trans stop' (before ahead atSecond' atFirst)))
  · have opens := before begins atFirst atFirst'
    have closes := before ends atSecond' atSecond
    exact .inr (.inl ⟨by omega, by omega⟩)
  · have opens := before begins atFirst' atFirst
    have closes := before ends atSecond atSecond'
    exact .inr (.inr ⟨by omega, by omega⟩)

end

/-- Region directives match like brackets: the folds of user regions are those of the pairs among
the directives of the tree, in which a directive without a partner does not matter to the others.
So in a tree without overlaps any two of these folds are apart or one contains the other. -/
theorem user_regions_match_like_brackets (tree : SyntaxTree) (config : AnnotationConfig)
    (foldsRegions : config.foldUserRegions) :
    tree.AreRegionFolds (tree.root.outermost Row.isRegionDirective)
        ((Cursor.walk (tree.visitFolds config) .empty (.atRoot tree.root)).folds.filter
          fun fold => fold.kind = .userRegion) ∧
      (∀ front directive back,
        tree.root.outermost Row.isRegionDirective = front ++ directive :: back →
          (∀ partner,
            ¬ RegionDirectives.PairedAt (tree.root.outermost Row.isRegionDirective)
                front.length partner ∧
              ¬ RegionDirectives.PairedAt (tree.root.outermost Row.isRegionDirective)
                partner front.length) →
            ∀ first second, RegionDirectives.PairedAt (front ++ back) first second ↔
              RegionDirectives.PairedAt (tree.root.outermost Row.isRegionDirective)
                (RegionDirectives.skip front.length first)
                (RegionDirectives.skip front.length second)) ∧
      (tree.root.IsNested →
        ∀ fold ∈ (Cursor.walk (tree.visitFolds config) .empty (.atRoot tree.root)).folds,
          ∀ other ∈ (Cursor.walk (tree.visitFolds config) .empty (.atRoot tree.root)).folds,
            fold.kind = .userRegion → other.kind = .userRegion →
              fold.region.DoNotCross other.region) := by
  rw [walk_visitFolds, ← directives_foldPlaces tree foldsRegions]
  refine ⟨areRegionFolds_scanned _, ?_, ?_⟩
  · intro front directive back split unpaired
    have all : ∀ other ∈ directives config (tree.foldPlaces config),
        other.beginsRegion ∨ other.endsRegion :=
      begins_or_ends_of_mem_directives
    rw [split] at all unpaired ⊢
    exact RegionDirectives.pairedAt_skip_iff all unpaired
  · intro nested fold found other found' isRegion isRegion'
    have areFolds : tree.AreRegionFolds (directives config (tree.foldPlaces config)) _ :=
      areRegionFolds_scanned _
    obtain ⟨pair, isPair, hasFold⟩ :=
      areFolds.exists_pairedAt (List.mem_filter.mpr ⟨found, decide_eq_true isRegion⟩)
    obtain ⟨pair', isPair', hasFold'⟩ :=
      areFolds.exists_pairedAt (List.mem_filter.mpr ⟨found', decide_eq_true isRegion'⟩)
    rw [directives_foldPlaces tree foldsRegions] at isPair hasFold isPair' hasFold'
    refine hasFold.doNotCross ?_ ?_ isPair hasFold' isPair'
    · exact List.pairwise_map.mpr (Cursor.pairwise_outermost nested (List.forall_mem_nil _))
    · refine List.forall_mem_map.mpr fun place isOutermost => ?_
      exact nested.forward
        (Cursor.within_of_mem_places (List.mem_of_mem_filter isOutermost)).below

/-- A region in a block within another region, and two directives without a partner. -/
def unbalancedRegions : SyntaxTree :=
  .ofText "#endregion\n#region a\n# region b\n#endregion\n#endregion x\n#region c".toList <|
    .mk ⟨"compilation_unit", true, false, false, false, 0, 65, none⟩
      [.mk ⟨"preproc_endregion", true, false, false, false, 0, 10, none⟩ [],
        .mk ⟨"preproc_region", true, false, false, false, 11, 20, none⟩ [],
        .mk ⟨"block", true, false, false, false, 21, 42, none⟩
          [.mk ⟨"preproc_region", true, false, false, false, 21, 31, none⟩ [],
            .mk ⟨"preproc_endregion", true, false, false, false, 32, 42, none⟩ []],
        .mk ⟨"preproc_endregion", true, false, false, false, 43, 55, none⟩ [],
        .mk ⟨"preproc_region", true, false, false, false, 56, 65, none⟩ []]

def unbalancedDirectives : List Node :=
  unbalancedRegions.root.outermost Row.isRegionDirective

/-- The first directive ends no region, so the others have the partners that they would have without
it. -/
theorem user_regions_match_like_brackets_unbalanced :
    unbalancedRegions.root.IsNested ∧
      (∃ folds, unbalancedRegions.AreRegionFolds unbalancedDirectives folds ∧
        (folds.map fun fold => (fold.name, fold.region.startByte, fold.region.endByte)) =
          [("b", 21, 42), ("a", 11, 55)] ∧
        ∀ fold ∈ folds, ∀ other ∈ folds, fold.region.DoNotCross other.region) ∧
      (RegionDirectives.PairedAt (unbalancedDirectives.drop 1) 0 3 ↔
        RegionDirectives.PairedAt unbalancedDirectives 1 4) := by
  have nested : unbalancedRegions.root.IsNested := by decide +kernel
  obtain ⟨areFolds, matched, apart⟩ :=
    user_regions_match_like_brackets unbalancedRegions .default rfl
  refine ⟨nested, ⟨_, areFolds, ?_, ?_⟩, ?_⟩
  · rw [walk_visitFolds]
    decide +kernel
  · intro fold found other found'
    obtain ⟨isFold, isRegion⟩ := List.mem_filter.mp found
    obtain ⟨isFold', isRegion'⟩ := List.mem_filter.mp found'
    exact apart nested fold isFold other isFold' (of_decide_eq_true isRegion)
      (of_decide_eq_true isRegion')
  · refine matched [] _ _ rfl (fun partner => ⟨fun pair => ?_, fun pair => ?_⟩) 0 3
    · have ends : unbalancedDirectives[0]?.map Node.beginsRegion = some false := by
        decide +kernel
      obtain ⟨opening, found, begins⟩ := pair.begins
      change unbalancedDirectives[0]? = some opening at found
      rw [found, Option.map_some, begins] at ends
      cases ends
    · exact absurd pair.ordered (Nat.not_lt_zero _)

end SyntaxTree

end SourceAnnotations
