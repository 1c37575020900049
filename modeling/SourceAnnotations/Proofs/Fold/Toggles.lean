import Mathlib.Data.List.Forall2
import Mathlib.Data.List.Sort
import SourceAnnotations.Proofs.Fold.Chains
import SourceAnnotations.Proofs.Fold.Kinds

/-!
# Switching the folds of comments

A configuration says whether comments fold and whether the folds of documentation start collapsed.
The first takes the folds of comments away and leaves all others, because comments come behind the
tree when the folds are normalised.  The second is one flag of some folds of comments, at which
normalising does not look.
-/

namespace SourceAnnotations

variable {comments : List Comment}

/-! ## Folds of comments with and without the flag -/

def isDocumentationAt (comments : List Comment) (index : Nat) : Bool :=
  comments[index]?.any Comment.isDocumentation

theorem isDocumentationAt_eq {index : Nat} {head : Comment}
    (atHead : comments[index]? = some head) :
    isDocumentationAt comments index = head.isDocumentation := by
  rw [isDocumentationAt, atHead]
  rfl

namespace HasFoldAt

variable {collapse : Bool} {index : Nat} {fold : Fold}

/-- A fold starts collapsed when documentation does and it begins with documentation. -/
theorem isCollapsedByDefault_eq (hasFold : HasFoldAt comments collapse index fold) :
    fold.isCollapsedByDefault = (collapse && isDocumentationAt comments index) := by
  cases hasFold with
  | chain _ _ atFirst _ => rw [isDocumentationAt_eq atFirst]
  | delimited found _ _ => rw [isDocumentationAt_eq found]

/-- Where documentation starts collapsed or no longer does, the folds are the same but for that. -/
theorem switch (hasFold : HasFoldAt comments collapse index fold) (other : Bool) :
    HasFoldAt comments other index
      (fold.collapsed (other && isDocumentationAt comments index)) := by
  cases hasFold with
  | chain isLong maximal atFirst atLast =>
      rw [isDocumentationAt_eq atFirst]
      exact .chain isLong maximal atFirst atLast
  | delimited found isBlock multiLine =>
      rw [isDocumentationAt_eq found]
      exact .delimited found isBlock multiLine

/-- A fold can be had from the one that starts open. -/
theorem collapsed_eq_self (hasFold : HasFoldAt comments collapse index fold) :
    fold.collapsed (collapse && isDocumentationAt comments index) = fold := by
  rw [← hasFold.isCollapsedByDefault_eq]
  rfl

end HasFoldAt

/-- The folds of comments with the places of the comments that they begin with. -/
theorem exists_placed_commentFolds (comments : List Comment) (collapse : Bool) :
    ∃ placed : List (Nat × Fold),
      placed.map Prod.snd = commentFolds comments collapse ∧
        placed.Pairwise (fun earlier later => earlier.1 < later.1) ∧
          ∀ index fold, (index, fold) ∈ placed ↔ HasFoldAt comments collapse index fold := by
  have areFolds : AreFoldsBetween comments collapse 0 (0 + comments.length)
      (commentFoldsAfter collapse none comments) :=
    areFolds_commentFoldsAfter List.drop_zero
      (.none fun previous isPrevious => absurd isPrevious (Nat.succ_ne_zero previous))
  obtain ⟨placed, folds, increasing, isFold⟩ := areFolds
  refine ⟨placed, folds, increasing, fun index fold => ?_⟩
  rw [isFold, Nat.zero_add]
  exact and_iff_right_of_imp fun hasFold => ⟨Nat.zero_le index, hasFold.lt_length⟩

/-- The folds of comments are the open ones, with the flag set at those of documentation. -/
theorem exists_commentFolds_eq_map (comments : List Comment) :
    ∃ placed : List (Nat × Fold),
      placed.Pairwise (fun earlier later => earlier.1 < later.1) ∧
        (∀ index fold, (index, fold) ∈ placed ↔ HasFoldAt comments false index fold) ∧
          ∀ collapse, commentFolds comments collapse = placed.map fun entry =>
            entry.2.collapsed (collapse && isDocumentationAt comments entry.1) := by
  obtain ⟨placed, _, increasing, isFold⟩ := exists_placed_commentFolds comments false
  refine ⟨placed, increasing, isFold, fun collapse => ?_⟩
  obtain ⟨others, folds, increasing', isFold'⟩ := exists_placed_commentFolds comments collapse
  let before : Nat × Fold → Nat × Fold → Prop := fun earlier later => earlier.1 < later.1
  have irreflexive : Std.Irrefl before := ⟨fun entry => Nat.lt_irrefl entry.1⟩
  have antisymmetric : Std.Antisymm before :=
    ⟨fun _ _ forward backward => absurd forward (Nat.lt_asymm backward)⟩
  have same : others = placed.map fun entry =>
      (entry.1, entry.2.collapsed (collapse && isDocumentationAt comments entry.1)) := by
    refine List.Pairwise.eq_of_mem_iff (r := before) increasing'
      (List.pairwise_map.mpr increasing) fun entry => ?_
    rw [List.mem_map, isFold' entry.1 entry.2]
    constructor
    · intro hasFold
      refine ⟨(entry.1, _), (isFold _ _).mpr (hasFold.switch false), ?_⟩
      exact Prod.ext rfl hasFold.collapsed_eq_self
    · rintro ⟨shown, isShown, rfl⟩
      exact ((isFold _ _).mp isShown).switch collapse
  rw [← folds, same, List.map_map]
  rfl

/-! ## Marked folds -/

/-- What becomes of an open fold when documentation starts collapsed: nothing, or the flag is set if
the fold is of comments and the first of them is documentation.  Of the folds of comments with one
region only that of the first place is shown. -/
inductive CollapsesDocumentation (comments : List Comment) : Fold → Fold → Prop
  | other {fold : Fold} (isOther : fold.kind ≠ .comment) : CollapsesDocumentation comments fold fold
  | comment {index : Nat} {head : Comment} {fold : Fold} (atHead : comments[index]? = some head)
      (hasFold : HasFoldAt comments false index fold)
      (isFirst : ∀ earlier other, earlier < index → HasFoldAt comments false earlier other →
        other.region ≠ fold.region) :
      CollapsesDocumentation comments fold (fold.collapsed head.isDocumentation)

/-- A fold, with the place of the comment that it begins with if it is one of comments. -/
abbrev MarkedFold : Type := Fold × Option Nat

/-- What is shown of a marked fold. -/
def MarkedFold.shown (comments : List Comment) (collapse : Bool) (marked : MarkedFold) : Fold :=
  match marked.2 with
  | none => marked.1
  | some index => marked.1.collapsed (collapse && isDocumentationAt comments index)

theorem MarkedFold.region_shown (collapse : Bool) (marked : MarkedFold) :
    (marked.shown comments collapse).region = marked.1.region := by
  obtain ⟨fold, _ | index⟩ := marked <;> rfl

/-- Of the folds of comments the first of a region is shown. -/
theorem collapses_of_eq_append {placed front back : List (Nat × Fold)} {index : Nat} {fold : Fold}
    (increasing : placed.Pairwise fun earlier later => earlier.1 < later.1)
    (isFold : ∀ index fold, (index, fold) ∈ placed ↔ HasFoldAt comments false index fold)
    (split : placed = front ++ (index, fold) :: back)
    (differ : ∀ entry ∈ front, entry.2.region ≠ fold.region) :
    CollapsesDocumentation comments (MarkedFold.shown comments false (fold, some index))
      (MarkedFold.shown comments true (fold, some index)) := by
  subst split
  have hasFold : HasFoldAt comments false index fold :=
    (isFold index fold).mp (List.mem_append_right _ List.mem_cons_self)
  obtain ⟨head, atHead⟩ : ∃ head, comments[index]? = some head :=
    ⟨_, List.getElem?_eq_getElem hasFold.lt_length⟩
  have isShown : MarkedFold.shown comments false (fold, some index) = fold :=
    hasFold.collapsed_eq_self
  have isCollapsed : MarkedFold.shown comments true (fold, some index) =
      fold.collapsed head.isDocumentation := by
    rw [← isDocumentationAt_eq atHead]
    rfl
  rw [isShown, isCollapsed]
  refine .comment atHead hasFold fun earlier other before hasOther => ?_
  rcases List.mem_append.mp ((isFold earlier other).mpr hasOther) with inFront | behind
  · exact differ _ inFront
  · -- The places increase, so what comes before the fold's place stands before it.
    have later := List.pairwise_cons.mp (List.pairwise_append.mp increasing).2.1
    rcases List.mem_cons.mp behind with same | inBack
    · obtain ⟨rfl, _⟩ := Prod.mk.inj same
      exact absurd before (Nat.lt_irrefl _)
    · exact absurd before (Nat.lt_asymm (later.1 _ inBack))

namespace SyntaxTree

variable {tree : SyntaxTree} {config : AnnotationConfig}

/-- The folds of the tree, and then those of the comments with their places. -/
def markedFolds (tree : SyntaxTree) (config : AnnotationConfig) (placed : List (Nat × Fold)) :
    List MarkedFold :=
  (tree.scanned config (tree.foldPlaces config)).folds.map (fun fold => (fold, none)) ++
    if config.foldComments then placed.map fun entry => (entry.2, some entry.1) else []

theorem foundFolds_eq_map {placed : List (Nat × Fold)} {collapse : Bool}
    (folds : commentFolds comments collapse = placed.map fun entry =>
      entry.2.collapsed (collapse && isDocumentationAt comments entry.1)) :
    tree.foundFolds comments { config with collapseDocComments := collapse } =
      (tree.markedFolds config placed).map (MarkedFold.shown comments collapse) := by
  have unmarked (folds : List Fold) :
      (folds.map fun fold => (fold, none)).map (MarkedFold.shown comments collapse) = folds := by
    rw [List.map_map]
    exact List.map_id folds
  rw [foundFolds, markedFolds, List.map_append, unmarked]
  refine congrArg (_ ++ ·) ?_
  cases config.foldComments with
  | false => rfl
  | true =>
      rw [if_pos rfl, if_pos rfl, folds, List.map_map]
      rfl

/-- The first fold of a region changes as documentation says. -/
theorem collapses_of_find? {placed : List (Nat × Fold)} {marked : MarkedFold}
    (increasing : placed.Pairwise fun earlier later => earlier.1 < later.1)
    (isFold : ∀ index fold, (index, fold) ∈ placed ↔ HasFoldAt comments false index fold)
    (found : (tree.markedFolds config placed).find?
      (fun other => other.1.region = marked.1.region) = some marked) :
    CollapsesDocumentation comments (marked.shown comments false)
      (marked.shown comments true) := by
  rw [markedFolds, List.find?_append, Option.or_eq_some_iff] at found
  rcases found with ofTree | ⟨_, ofComments⟩
  · obtain ⟨fold, isScanned, rfl⟩ := List.mem_map.mp (List.mem_of_find?_eq_some ofTree)
    exact .other (kind_ne_comment_of_mem_scanned isScanned)
  · split at ofComments
    · rw [List.find?_map, Option.map_eq_some_iff] at ofComments
      obtain ⟨⟨index, fold⟩, first, rfl⟩ := ofComments
      obtain ⟨_, front, back, split, differ⟩ := List.find?_eq_some_iff_append.mp first
      refine collapses_of_eq_append increasing isFold split fun entry inFront => ?_
      have unlike := differ entry inFront
      rw [Bool.not_eq_true'] at unlike
      exact of_decide_eq_false unlike
    · cases ofComments

/-! ## Both switches -/

/-- Comments that do not fold leave the other folds as they are, and documentation that starts
collapsed sets one flag of its own folds. -/
theorem comment_toggles_leave_other_folds (tree : SyntaxTree) (comments : List Comment)
    (config : AnnotationConfig) :
    (∀ cancellation,
      tree.foldings comments (config.setFoldComments false) cancellation =
        (tree.foldings comments (config.setFoldComments true) cancellation).map fun folds =>
          folds.filter fun fold => fold.kind ≠ .comment) ∧
    (∃ shown collapsed,
      tree.foldings comments { config with collapseDocComments := false } .live = .ok shown ∧
        tree.foldings comments { config with collapseDocComments := true } .live = .ok collapsed ∧
          List.Forall₂ (CollapsesDocumentation comments) shown collapsed) ∧
    ∀ collapse,
      tree.foldings comments { config with collapseDocComments := collapse } .cancelled =
        .error .cancelled := by
  refine ⟨fun cancellation => ?_, ?_, fun _ => rfl⟩
  · cases cancellation with
    | cancelled => rfl
    | live =>
        have without : tree.foundFolds comments (config.setFoldComments false) =
            (tree.scanned config (tree.foldPlaces config)).folds :=
          List.append_nil _
        have together : tree.foundFolds comments (config.setFoldComments true) =
            (tree.scanned config (tree.foldPlaces config)).folds ++
              commentFolds comments config.collapseDocComments :=
          rfl
        rw [foldings_eq, foldings_eq, without, together, Except.map, filter_normalizeFolds_append]
        · exact fun fold found => decide_eq_true (kind_ne_comment_of_mem_scanned found)
        · intro fold found isOther
          exact of_decide_eq_true isOther (kind_of_mem_commentFoldsAfter found)
  · obtain ⟨placed, increasing, isFold, folds⟩ := exists_commentFolds_eq_map comments
    refine ⟨_, _, foldings_eq .., foldings_eq .., ?_⟩
    rw [foundFolds_eq_map (folds false), foundFolds_eq_map (folds true),
      normalizeFolds_map (MarkedFold.region_shown false),
      normalizeFolds_map (MarkedFold.region_shown true), List.forall₂_map_left_iff,
      List.forall₂_map_right_iff, List.forall₂_same]
    intro marked kept
    exact collapses_of_find? increasing isFold (mem_dropRepeats_iff.mp (List.mem_filter.mp kept).1)

end SyntaxTree

end SourceAnnotations
