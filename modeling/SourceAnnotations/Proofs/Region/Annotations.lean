import Mathlib.Data.Option.Basic
import SourceAnnotations.Annotate
import SourceAnnotations.Proofs.Comment.Rows
import SourceAnnotations.Proofs.Tree.Walk

/-!
# Regions of annotations

Every annotation of a text has a region that spans the text, whatever the tree's rows say about
their bytes.  Regions are made by the index of the text, or cover two that are.  Sorting, dropping
repeats and tagging do not make any.
-/

namespace SourceAnnotations

variable {text : Text} {root : Node} {config : AnnotationConfig} {cancellation : Cancellation}

/-! ## Comments and tags -/

section

variable {comments : List Comment}

theorem spans_comments
    (collected : (SyntaxTree.ofText text root).comments config cancellation = .ok comments)
    {comment : Comment} (member : comment ∈ comments) : comment.region.Spans text := by
  cases cancellation with
  | cancelled => cases collected
  | live =>
      obtain ⟨_, _, made⟩ := SyntaxTree.exists_row_of_mem_comments collected member
      exact SyntaxTree.spans_of_comment? made

theorem spans_commentTags (spans : ∀ comment ∈ comments, comment.region.Spans text)
    {words : List TagWord} {tag : Tag} (member : tag ∈ commentTags comments words) :
    tag.region.Spans text := by
  obtain ⟨comment, isComment, made⟩ := List.mem_filterMap.mp member
  have sameRegion : tag.region = comment.region := by
    rw [Comment.tag?] at made
    split at made
    · cases made
    · obtain ⟨word, _, found⟩ := List.exists_of_findSome?_eq_some made
      obtain ⟨message, _, rfl⟩ := Option.map_eq_some_iff.mp found
      rfl
  rw [sameRegion]
  exact spans comment isComment

theorem spans_throwTags {tags : List Tag}
    (found : (SyntaxTree.ofText text root).throwTags config cancellation = .ok tags) {tag : Tag}
    (member : tag ∈ tags) : tag.region.Spans text := by
  cases cancellation with
  | cancelled => cases found
  | live =>
      cases found
      obtain ⟨throwing, _, made⟩ := List.mem_filterMap.mp (mem_sortByRegion.mp member)
      simp only [SyntaxTree.throwTag?, Option.bind_eq_bind, Option.bind_eq_some_iff,
        Option.pure_def, Option.some.injEq] at made
      obtain ⟨created, _, _, _, type, _, _, _, rfl⟩ := made
      exact Region.spans_region text _ _

end

/-! ## Diagnostics -/

theorem spans_visitRecovery {found : List Diagnostic}
    (spans : ∀ diagnostic ∈ found, diagnostic.region.Spans text) (cursor : Cursor) :
    ∀ diagnostic ∈ ((SyntaxTree.ofText text root).visitRecovery found cursor).1,
      diagnostic.region.Spans text := by
  have added {diagnostic : Diagnostic}
      (region : diagnostic.region = (SyntaxTree.ofText text root).nodeRegion cursor.focus) :
      ∀ other ∈ found ++ [diagnostic], other.region.Spans text := by
    intro other member
    rcases List.mem_append.mp member with earlier | last
    · exact spans other earlier
    · rw [List.mem_singleton.mp last, region]
      exact Region.spans_region text _ _
  rw [SyntaxTree.visitRecovery]
  split
  · exact added rfl
  · split
    · exact added rfl
    · exact spans

theorem spans_walkRecovery :
    ∀ diagnostic ∈
        Cursor.walk (SyntaxTree.ofText text root).visitRecovery [] (.atRoot root),
      diagnostic.region.Spans text := by
  apply Cursor.walk_keeps _ fun (found : List Diagnostic) =>
    ∀ diagnostic ∈ found, diagnostic.region.Spans text
  · exact fun _ cursor spans => spans_visitRecovery spans cursor
  · exact fun _ none => absurd none List.not_mem_nil

theorem spans_recoveryDiagnostics {diagnostics : List Diagnostic}
    (found : (SyntaxTree.ofText text root).recoveryDiagnostics cancellation = .ok diagnostics)
    {diagnostic : Diagnostic} (member : diagnostic ∈ diagnostics) :
    diagnostic.region.Spans text := by
  rw [SyntaxTree.recoveryDiagnostics] at found
  split at found
  · cases cancellation with
    | cancelled => cases found
    | live =>
        cases found
        exact spans_walkRecovery diagnostic member
  · cases found
    cases member

/-! ## Folds of comments -/

/-- The comments with which a run begins and ends have regions that span the text. -/
def CommentRun.Spans (text : Text) (run : CommentRun) : Prop :=
  run.first.region.Spans text ∧ run.last.region.Spans text

theorem spans_runFold {collapse : Bool} {run : Option CommentRun}
    (spans : ∀ known, run = some known → known.Spans text) {fold : Fold}
    (member : fold ∈ runFold collapse run) : fold.region.Spans text := by
  cases run with
  | none => cases member
  | some run =>
      obtain ⟨first, last⟩ := spans run rfl
      rw [runFold] at member
      split at member
      · rw [List.mem_singleton.mp member]
        exact first.cover last
      · cases member

theorem spans_blockFold {collapse : Bool} {comment : Comment}
    (spans : comment.region.Spans text) {fold : Fold}
    (member : fold ∈ blockFold collapse comment) : fold.region.Spans text := by
  rw [blockFold] at member
  split at member
  · rw [List.mem_singleton.mp member]
    exact spans
  · cases member

theorem spans_commentFoldsAfter {collapse : Bool} {comments : List Comment}
    {run : Option CommentRun} (spans : ∀ comment ∈ comments, comment.region.Spans text)
    (spansRun : ∀ known, run = some known → known.Spans text) {fold : Fold}
    (member : fold ∈ commentFoldsAfter collapse run comments) : fold.region.Spans text := by
  induction comments generalizing run with
  | nil => exact spans_runFold spansRun member
  | cons comment rest inductionHypothesis =>
      obtain ⟨here, spansLater⟩ := List.forall_mem_cons.mp spans
      rw [commentFoldsAfter] at member
      split at member
      · rcases List.mem_append.mp member with atHead | later
        · rcases List.mem_append.mp atHead with ended | block
          · exact spans_runFold spansRun ended
          · exact spans_blockFold here block
        · refine inductionHypothesis spansLater ?_ later
          intro known none
          cases none
      · split at member
        · next known continued =>
          refine inductionHypothesis spansLater ?_ member
          intro extended isExtended
          cases isExtended
          exact ⟨(spansRun known (Option.eq_some_of_filter_eq_some continued)).1, here⟩
        · rcases List.mem_append.mp member with ended | later
          · exact spans_runFold spansRun ended
          · refine inductionHypothesis spansLater ?_ later
            intro known starts
            rw [CommentRun.starting?] at starts
            split at starts
            · cases starts
              exact ⟨here, here⟩
            · cases starts

/-! ## Folds of the tree -/

theorem spans_usingFolds {scope : Node} {fold : Fold}
    (member : fold ∈ (SyntaxTree.ofText text root).usingFolds scope) : fold.region.Spans text := by
  obtain ⟨run, _, made⟩ := List.mem_filterMap.mp member
  rw [UsingRun.fold?] at made
  split at made
  · cases made
    exact Region.spans_region text _ _
  · cases made

theorem spans_scopeFolds {cursor : Cursor} {fold : Fold}
    (member : fold ∈ (SyntaxTree.ofText text root).scopeFolds cursor) :
    fold.region.Spans text := by
  rw [SyntaxTree.scopeFolds] at member
  split at member
  · exact spans_usingFolds member
  · split at member
    · split at member
      · exact spans_usingFolds member
      · cases member
    · cases member

theorem spans_braceFold {cursor : Cursor} {fold : Fold}
    (found : (SyntaxTree.ofText text root).braceFold? cursor = some fold) :
    fold.region.Spans text := by
  simp only [SyntaxTree.braceFold?, SyntaxTree.braceRegion?, Option.bind_eq_bind,
    Option.bind_eq_some_iff, Option.pure_def, Option.some.injEq] at found
  obtain ⟨kind, _, region, ⟨holder, _, braces, _, rfl⟩, _, _, rfl⟩ := found
  exact Region.spans_region text _ _

theorem spans_visitFolds {scan : FoldScan}
    (spans : ∀ fold ∈ scan.folds, fold.region.Spans text) (cursor : Cursor) :
    ∀ fold ∈ ((SyntaxTree.ofText text root).visitFolds config scan cursor).1.folds,
      fold.region.Spans text := by
  rw [SyntaxTree.visitFolds]
  split
  · exact spans
  · split
    · rw [FoldScan.endRegion]
      split
      · exact spans
      · intro fold member
        rcases List.mem_append.mp member with earlier | last
        · exact spans fold earlier
        · rw [List.mem_singleton.mp last]
          exact Region.spans_region text _ _
    · intro fold member
      rcases List.mem_append.mp member with earlier | added
      · exact spans fold earlier
      · rcases List.mem_append.mp added with ofScope | ofBraces
        · exact spans_scopeFolds ofScope
        · exact spans_braceFold (Option.mem_toList.mp ofBraces)

theorem spans_walkFolds :
    ∀ fold ∈
        (Cursor.walk ((SyntaxTree.ofText text root).visitFolds config) .empty
          (.atRoot root)).folds,
      fold.region.Spans text := by
  apply Cursor.walk_keeps _ fun (scan : FoldScan) =>
    ∀ fold ∈ scan.folds, fold.region.Spans text
  · exact fun _ cursor spans => spans_visitFolds spans cursor
  · exact fun _ none => absurd none List.not_mem_nil

theorem spans_foldings {comments : List Comment} {folds : List Fold}
    (spans : ∀ comment ∈ comments, comment.region.Spans text)
    (found : (SyntaxTree.ofText text root).foldings comments config cancellation = .ok folds)
    {fold : Fold} (member : fold ∈ folds) : fold.region.Spans text := by
  cases cancellation with
  | cancelled => cases found
  | live =>
      cases found
      have isFold := mem_sortByRegion.mp (mem_of_mem_dropRepeats (List.mem_filter.mp member).1)
      rcases List.mem_append.mp isFold with ofTree | ofComments
      · exact spans_walkFolds fold ofTree
      · split at ofComments
        · refine spans_commentFoldsAfter spans ?_ ofComments
          intro known none
          cases none
        · cases ofComments

/-! ## All annotations -/

/-- The regions of all annotations that have been made. -/
def Annotations.regions (annotations : Annotations) : List Region :=
  (annotations.comments.toOption.getD []).map Comment.region ++
    (annotations.tags.toOption.getD []).map Tag.region ++
    annotations.commentTags.map Tag.region ++
    (annotations.foldings.toOption.getD []).map Fold.region ++
    (annotations.diagnostics.toOption.getD []).map Diagnostic.region

theorem exists_of_mem_toOption {α : Type} {result : Except DocumentError (List α)} {item : α}
    (member : item ∈ result.toOption.getD []) : ∃ items, result = .ok items ∧ item ∈ items := by
  cases result with
  | error failure => cases member
  | ok items => exact ⟨items, rfl, member⟩

/-- A caller who has not cancelled gets all annotations of a text.  The region of every annotation
has two views that agree with the text and with each other, whatever bytes the rows of the tree are
at. -/
theorem annotations_span_the_text (text : Text) (root : Node) (config : AnnotationConfig) :
    let annotate := fun cancellation =>
      (SyntaxTree.ofText text root).annotate config cancellation none
    (∃ comments tags folds diagnostics,
      annotate .live =
        ⟨.ok comments, .ok tags, commentTags comments config.tagWords, .ok folds,
          .ok diagnostics⟩) ∧
      ∀ cancellation, ∀ region ∈ (annotate cancellation).regions, region.Spans text := by
  intro annotate
  refine ⟨?_, fun cancellation region member => ?_⟩
  · let tree := SyntaxTree.ofText text root
    obtain ⟨comments, collected⟩ : ∃ comments, tree.comments config .live = .ok comments :=
      ⟨_, rfl⟩
    obtain ⟨tags, tagged⟩ : ∃ tags, tree.throwTags config .live = .ok tags := ⟨_, rfl⟩
    obtain ⟨folds, folded⟩ : ∃ folds, tree.foldings comments config .live = .ok folds := ⟨_, rfl⟩
    obtain ⟨diagnostics, diagnosed⟩ :
        ∃ diagnostics, tree.recoveryDiagnostics .live = .ok diagnostics := by
      rw [SyntaxTree.recoveryDiagnostics]
      split <;> exact ⟨_, rfl⟩
    refine ⟨comments, tags, folds, diagnostics, ?_⟩
    simp only [annotate, SyntaxTree.annotate]
    rw [collected, tagged, diagnosed, Except.toOption, Option.getD_none, Option.getD_some, folded]
  · have collected :
        ∀ comment ∈ ((SyntaxTree.ofText text root).comments config cancellation).toOption.getD [],
          comment.region.Spans text := by
      intro comment isComment
      obtain ⟨comments, made, member⟩ := exists_of_mem_toOption isComment
      exact spans_comments made member
    simp only [Annotations.regions, annotate, SyntaxTree.annotate, Option.getD_none,
      List.mem_append, List.mem_map] at member
    rcases member with (((⟨comment, isComment, rfl⟩ | ⟨tag, isTag, rfl⟩) | ⟨tag, isTag, rfl⟩) |
      ⟨fold, isFold, rfl⟩) | ⟨diagnostic, isDiagnostic, rfl⟩
    · exact collected comment isComment
    · obtain ⟨tags, made, member⟩ := exists_of_mem_toOption isTag
      exact spans_throwTags made member
    · exact spans_commentTags collected isTag
    · obtain ⟨folds, made, member⟩ := exists_of_mem_toOption isFold
      exact spans_foldings collected made member
    · obtain ⟨diagnostics, made, member⟩ := exists_of_mem_toOption isDiagnostic
      exact spans_recoveryDiagnostics made member

/-- A comment, and an error at bytes that are reversed and past the end. -/
def reversedTree : Node :=
  .mk ⟨"compilation_unit", true, false, false, true, 0, 4, none⟩
    [.mk ⟨"comment", true, false, false, false, 0, 4, none⟩ [],
      .mk ⟨"ERROR", true, false, true, true, 9, 7, none⟩ []]

/-- The error is diagnosed at the end of the text. -/
theorem annotations_span_the_text_reversed :
    let annotations :=
      (SyntaxTree.ofText "// a".toList reversedTree).annotate .default .live none
    annotations.regions = [⟨⟨0, 0⟩, ⟨0, 4⟩, 0, 4⟩, ⟨⟨0, 4⟩, ⟨0, 4⟩, 4, 4⟩] ∧
      ∀ region ∈ annotations.regions, region.Spans "// a".toList := by
  obtain ⟨_, spans⟩ := annotations_span_the_text "// a".toList reversedTree .default
  exact ⟨by decide +kernel, spans .live⟩

end SourceAnnotations
