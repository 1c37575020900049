import Mathlib.Data.List.DropRight
import SourceAnnotations.Proofs.Comment.Forms
import SourceAnnotations.Proofs.Region.Span
import SourceAnnotations.Proofs.Text.Bytes
import SourceAnnotations.Proofs.Tree.Coverage

/-!
# Comments and their rows

A comment is read off a row: its region is that of the row without the line end that the row may
include, and its delimiters and its body are what the text has there.  Rows that share no byte have
regions in the order of their bytes, so sorting and dropping repeats keep one comment for each row.
-/

namespace SourceAnnotations

/-! ## Line ends -/

namespace Text

/-- The line feeds and carriage returns at the end of a text. -/
def lineEnd (text : Text) : Text :=
  text.rtakeWhile fun c => c = '\r' || c = '\n'

theorem withoutLineEnd_append_lineEnd (text : Text) :
    text.withoutLineEnd ++ text.lineEnd = text :=
  List.rdropWhile_append_rtakeWhile

/-- What a text opens with stays when the line end goes. -/
theorem isPrefix_withoutLineEnd {opening text : Text} (opens : opening <+: text)
    (inLine : ∀ c ∈ opening, c ≠ '\r' ∧ c ≠ '\n') : opening <+: text.withoutLineEnd := by
  have whole := text.withoutLineEnd_append_lineEnd
  rcases List.prefix_or_prefix_of_prefix opens ⟨_, whole⟩ with within | ⟨extra, rfl⟩
  · exact within
  · obtain ⟨rest, spelt⟩ := opens
    rw [List.append_assoc] at spelt
    have beyond : text.lineEnd = extra ++ rest := List.append_cancel_left (whole.trans spelt.symm)
    cases extra with
    | nil => simp
    | cons head tail =>
        have isEnd : head ∈ text.lineEnd := by
          rw [beyond]
          exact List.mem_append_left rest List.mem_cons_self
        have isOpening := inLine head (List.mem_append_right _ List.mem_cons_self)
        have isBreak := List.mem_rtakeWhile_imp isEnd
        simp [isOpening] at isBreak

end Text

/-! ## The comment of a row -/

namespace SyntaxTree

/-- The text of a row without the line end that the row may include. -/
def commentText (tree : SyntaxTree) (node : Node) : Text :=
  (tree.nodeText node).withoutLineEnd

theorem slice?_of_nodeText_ne_nil {tree : SyntaxTree} {node : Node}
    (nonempty : tree.nodeText node ≠ []) :
    tree.text.slice? node.row.startByte node.row.endByte = some (tree.nodeText node) := by
  rw [nodeText] at nonempty ⊢
  cases found : tree.text.slice? node.row.startByte node.row.endByte with
  | some whole => rw [Option.getD_some]
  | none =>
      rw [found] at nonempty
      exact absurd rfl nonempty

variable {text : Text} {root node : Node} {tokens : CommentTokens} {comment : Comment}

theorem comment?_eq_some_iff {tree : SyntaxTree} :
    tree.comment? tokens node = some comment ↔
      tree.commentText node ≠ [] ∧ ∃ form, tokens.form? (tree.commentText node) = some form ∧
        comment =
          { kind := form.kind
            openTag := form.openTag
            closingTag := form.closingTag
            text := String.ofList (form.body (tree.commentText node))
            region := tree.index.region node.row.startByte
              (node.row.startByte + (tree.commentText node).byteSize)
            startsLine := tree.text.startsLineAt node.row.startByte } := by
  rw [comment?, commentText]
  by_cases empty : (tree.nodeText node).withoutLineEnd = []
  · simp only [empty, if_true, ne_eq, not_true_eq_false, false_and, reduceCtorEq]
  · simp only [empty, if_false, ne_eq, not_false_eq_true, true_and, Option.map_eq_some_iff]
    exact exists_congr fun form => and_congr_right fun _ => eq_comm

theorem spans_of_comment?
    (made : (SyntaxTree.ofText text root).comment? tokens node = some comment) :
    comment.region.Spans text := by
  obtain ⟨_, _, _, rfl⟩ := comment?_eq_some_iff.mp made
  exact Region.spans_region text _ _

/-- A row that has a comment is a part of the text, and it has more than a line end. -/
theorem exists_around_of_comment?
    (made : (SyntaxTree.ofText text root).comment? tokens node = some comment) :
    ∃ front rest,
      text = front ++ (SyntaxTree.ofText text root).commentText node ++
          (((SyntaxTree.ofText text root).nodeText node).lineEnd ++ rest) ∧
        front.byteSize = node.row.startByte ∧
          node.row.startByte + ((SyntaxTree.ofText text root).commentText node).byteSize +
            ((SyntaxTree.ofText text root).nodeText node).lineEnd.byteSize = node.row.endByte := by
  obtain ⟨nonempty, _⟩ := comment?_eq_some_iff.mp made
  have whole := ((SyntaxTree.ofText text root).nodeText node).withoutLineEnd_append_lineEnd
  have hasText : (SyntaxTree.ofText text root).nodeText node ≠ [] := by
    intro empty
    rw [commentText, empty] at nonempty
    exact nonempty rfl
  obtain ⟨front, rest, split, start, stop⟩ :=
    Text.slice?_eq_some_iff.mp (slice?_of_nodeText_ne_nil hasText)
  refine ⟨front, rest, ?_, start, ?_⟩
  · rw [commentText, List.append_assoc, ← List.append_assoc _ _ rest, whole, ← List.append_assoc]
    exact split
  · rw [← whole, Text.byteSize_append] at stop
    rw [commentText]
    omega

/-- The region of a comment is that of its row without the line end. -/
theorem region_of_comment?
    (made : (SyntaxTree.ofText text root).comment? tokens node = some comment) :
    comment.region.startByte = node.row.startByte ∧
      comment.region.endByte + ((SyntaxTree.ofText text root).nodeText node).lineEnd.byteSize =
        node.row.endByte ∧
      text.slice? comment.region.startByte comment.region.endByte =
        some ((SyntaxTree.ofText text root).commentText node) := by
  obtain ⟨front, rest, split, start, stop⟩ := exists_around_of_comment? made
  obtain ⟨_, form, _, fields⟩ := comment?_eq_some_iff.mp made
  have size := congrArg Text.byteSize split
  simp only [Text.byteSize_append] at size
  have startByte : comment.region.startByte = node.row.startByte := by
    rw [fields]
    change min node.row.startByte text.byteSize = node.row.startByte
    omega
  have endByte : comment.region.endByte =
      node.row.startByte + ((SyntaxTree.ofText text root).commentText node).byteSize := by
    rw [fields]
    change min (max (node.row.startByte + _) node.row.startByte) text.byteSize = _
    omega
  refine ⟨startByte, ?_, ?_⟩
  · rw [endByte, stop]
  · rw [startByte, endByte]
    exact Text.slice?_eq_some_iff.mpr ⟨front, _, split, start, by rw [start]⟩

/-- A row that has a comment is not empty. -/
theorem covers_of_comment?
    (made : (SyntaxTree.ofText text root).comment? tokens node = some comment) :
    node.Covers node.row.startByte := by
  obtain ⟨nonempty, _⟩ := comment?_eq_some_iff.mp made
  obtain ⟨_, _, _, _, stop⟩ := exists_around_of_comment? made
  have positive := Text.byteSize_pos nonempty
  exact ⟨Nat.le_refl _, by omega⟩

/-- A row that has a comment starts within the text. -/
theorem startByte_lt_of_comment?
    (made : (SyntaxTree.ofText text root).comment? tokens node = some comment) :
    node.row.startByte < text.byteSize := by
  obtain ⟨nonempty, _⟩ := comment?_eq_some_iff.mp made
  obtain ⟨_, _, split, start, _⟩ := exists_around_of_comment? made
  have size := congrArg Text.byteSize split
  have positive := Text.byteSize_pos nonempty
  simp only [Text.byteSize_append] at size
  omega

/-- Of two rows that share no byte, the one that does not start later has the first comment. -/
theorem isBefore_of_comment? {other : Node} {next : Comment} (apart : node.IsApartFrom other)
    (ordered : node.row.startByte ≤ other.row.startByte)
    (made : (SyntaxTree.ofText text root).comment? tokens node = some comment)
    (madeNext : (SyntaxTree.ofText text root).comment? tokens other = some next) :
    comment.region.IsBefore next.region := by
  have behind : node.row.endByte ≤ other.row.startByte := by
    have notCovers := fun covers => apart _ covers (covers_of_comment? madeNext)
    exact Nat.le_of_not_lt fun before => notCovers ⟨ordered, before⟩
  have nonempty := (covers_of_comment? made).2
  obtain ⟨startByte, endByte, _⟩ := region_of_comment? made
  obtain ⟨nextStartByte, _⟩ := region_of_comment? madeNext
  have spans := spans_of_comment? made
  have spansNext := spans_of_comment? madeNext
  have forward := spansNext.forward
  exact spans.isBefore spansNext (by omega) (by omega)

/-- Every row that opens a comment of C# has one. -/
theorem exists_comment?_of_opens {tree : SyntaxTree}
    (opens : "//".toList <+: tree.nodeText node ∨ "/*".toList <+: tree.nodeText node) :
    ∃ comment, tree.comment? .csharp node = some comment := by
  have opensText : "//".toList <+: tree.commentText node ∨ "/*".toList <+: tree.commentText node :=
    opens.imp (fun isLine => Text.isPrefix_withoutLineEnd isLine (by simp))
      (fun isBlock => Text.isPrefix_withoutLineEnd isBlock (by simp))
  have nonempty : tree.commentText node ≠ [] := by
    intro empty
    rw [empty] at opensText
    simp at opensText
  obtain ⟨form, isForm⟩ := CommentTokens.exists_isForm opensText
  exact ⟨_, comment?_eq_some_iff.mpr
    ⟨nonempty, form, CommentTokens.csharp_form?_eq_some_iff.mpr isForm, rfl⟩⟩

/-! ## The comments of a text -/

/-- The rows of comments, in the order of the bytes at which they start. -/
def commentRows (tree : SyntaxTree) : List Node :=
  (tree.namedRows [Kinds.comment]).mergeSort fun left right =>
    left.row.startByte ≤ right.row.startByte

theorem commentRows_perm (tree : SyntaxTree) :
    tree.commentRows.Perm (tree.namedRows [Kinds.comment]) :=
  List.mergeSort_perm _ _

theorem commentRows_pairwise (tree : SyntaxTree) :
    tree.commentRows.Pairwise fun left right => left.row.startByte ≤ right.row.startByte := by
  have sorted : tree.commentRows.Pairwise fun left right =>
      decide (left.row.startByte ≤ right.row.startByte) := by
    apply List.pairwise_mergeSort
    · intro first second third before after
      simp only [decide_eq_true_eq] at before after ⊢
      exact Nat.le_trans before after
    · intro left right
      simp only [Bool.or_eq_true, decide_eq_true_eq]
      exact Nat.le_total _ _
  exact sorted.imp of_decide_eq_true

/-- Rows that share no byte have comments in the order of the rows. -/
theorem comments_pairwise (tokens : CommentTokens)
    (apart : ((SyntaxTree.ofText text root).namedRows [Kinds.comment]).Pairwise
      Node.IsApartFrom) :
    ((SyntaxTree.ofText text root).commentRows.filterMap
      ((SyntaxTree.ofText text root).comment? tokens)).Pairwise
        fun comment next => comment.region.IsBefore next.region := by
  have apartSorted : (SyntaxTree.ofText text root).commentRows.Pairwise Node.IsApartFrom :=
    (List.Perm.pairwise_iff Node.IsApartFrom.symm (commentRows_perm _)).mpr apart
  rw [List.pairwise_filterMap]
  refine (commentRows_pairwise _).imp₂ ?_ apartSorted
  intro row other ordered apart comment made next madeNext
  exact isBefore_of_comment? apart ordered made madeNext

/-- Comments of different regions are sorted in one way, and there are no repeats to drop. -/
theorem comments_eq_of_perm {tree : SyntaxTree} {config : AnnotationConfig}
    {listed : List Comment}
    (same : ((tree.namedRows [Kinds.comment]).filterMap (tree.comment? config.comment)).Perm listed)
    (increasing : listed.Pairwise fun comment next => comment.region.IsBefore next.region) :
    tree.comments config .live = .ok listed := by
  change Except.ok (dropRepeats Comment.region (sortByRegion Comment.region
    ((tree.namedRows [Kinds.comment]).filterMap (tree.comment? config.comment)))) = _
  rw [sortByRegion_eq_of_perm same increasing, dropRepeats_eq_self increasing]

theorem comments_eq (config : AnnotationConfig)
    (apart : ((SyntaxTree.ofText text root).namedRows [Kinds.comment]).Pairwise
      Node.IsApartFrom) :
    (SyntaxTree.ofText text root).comments config .live =
      .ok ((SyntaxTree.ofText text root).commentRows.filterMap
        ((SyntaxTree.ofText text root).comment? config.comment)) :=
  comments_eq_of_perm ((commentRows_perm _).symm.filterMap _)
    (comments_pairwise config.comment apart)

/-- Every comment of a text is that of a row. -/
theorem exists_row_of_mem_comments {tree : SyntaxTree} {config : AnnotationConfig}
    {comments : List Comment} (collected : tree.comments config .live = .ok comments)
    (member : comment ∈ comments) :
    ∃ row ∈ tree.namedRows [Kinds.comment], tree.comment? config.comment row = some comment := by
  cases collected
  exact List.mem_filterMap.mp (mem_sortByRegion.mp (mem_of_mem_dropRepeats member))

end SyntaxTree

/-- Where the rows of comments share no byte, the comments of a text are those of its rows, one for
each row that has one, in the order of the rows.  The region of a comment is that of its row without
the line end, and with the tokens of C# every row that opens a comment has one. -/
theorem comments_are_those_of_rows (text : Text) (root : Node) (config : AnnotationConfig)
    (apart : ((SyntaxTree.ofText text root).namedRows [Kinds.comment]).Pairwise
      Node.IsApartFrom) :
    let tree := SyntaxTree.ofText text root
    let comments := tree.commentRows.filterMap (tree.comment? config.comment)
    tree.comments config .live = .ok comments ∧
      comments.Pairwise (fun comment next => comment.region.IsBefore next.region) ∧
        (∀ row ∈ tree.commentRows, ∀ comment, tree.comment? config.comment row = some comment →
          comment.region.startByte = row.row.startByte ∧
            comment.region.endByte + (tree.nodeText row).lineEnd.byteSize = row.row.endByte) ∧
          ∀ row ∈ tree.commentRows,
            "//".toList <+: tree.nodeText row ∨ "/*".toList <+: tree.nodeText row →
              ∃ comment, tree.comment? .csharp row = some comment := by
  intro tree comments
  refine ⟨SyntaxTree.comments_eq config apart, SyntaxTree.comments_pairwise config.comment apart,
    fun row _ comment made => ?_, fun row _ opens => SyntaxTree.exists_comment?_of_opens opens⟩
  obtain ⟨startByte, endByte, _⟩ := SyntaxTree.region_of_comment? made
  exact ⟨startByte, endByte⟩

/-- A text of two comments on one line, and a tree that has them the other way round. -/
def swappedComments : SyntaxTree :=
  .ofText "/* a */ // b\r\n".toList <|
    .mk ⟨"compilation_unit", true, false, false, false, 0, 14, none⟩
      [.mk ⟨"comment", true, false, false, false, 8, 13, none⟩ [],
        .mk ⟨"comment", true, false, false, false, 0, 7, none⟩ []]

theorem comments_are_those_of_rows_swapped :
    (swappedComments.namedRows [Kinds.comment]).Pairwise Node.IsApartFrom ∧
      ∃ comments, swappedComments.comments .default .live = .ok comments ∧
        (comments.map fun comment => (comment.region.startByte, comment.region.endByte)) =
          [(0, 7), (8, 12)] ∧
        comments.Pairwise fun comment next => comment.region.IsBefore next.region := by
  have apart : (swappedComments.namedRows [Kinds.comment]).Pairwise Node.IsApartFrom := by
    refine List.pairwise_pair.mpr fun byte covers covered => ?_
    exact Nat.lt_irrefl 8 (Nat.lt_of_le_of_lt covers.1 (Nat.lt_of_lt_of_le covered.2 (by decide)))
  have rows : swappedComments.commentRows = swappedComments.root.children.reverse := by
    change List.mergeSort swappedComments.root.children _ = _
    simp [List.mergeSort, swappedComments, SyntaxTree.ofText, Node.children, Node.row]
  obtain ⟨collected, increasing, _⟩ :=
    comments_are_those_of_rows "/* a */ // b\r\n".toList swappedComments.root .default apart
  refine ⟨apart, _, collected, ?_, increasing⟩
  change (swappedComments.commentRows.filterMap _).map _ = _
  rw [rows]
  decide +kernel

/-! ## Delimiters and body -/

/-- With the tokens of C#, the slice of the text at a comment's region is that of its row without
the line end.  Where the slice is closed, the delimiters and the body of the comment spell it.  What
the slice begins with tells the kind of the comment and its closing delimiter. -/
theorem comments_spell_their_slices (text : Text) (root : Node) (config : AnnotationConfig) :
    let tree := SyntaxTree.ofText text root
    ∃ comments, tree.comments { config with comment := .csharp } .live = .ok comments ∧
      ∀ comment ∈ comments, ∃ row ∈ tree.namedRows [Kinds.comment], ∃ slice,
        tree.comment? .csharp row = some comment ∧
        slice = (tree.nodeText row).withoutLineEnd ∧
        text.slice? comment.region.startByte comment.region.endByte = some slice ∧
        (slice.IsClosed →
          comment.openTag ++ comment.text ++ comment.closingTag = String.ofList slice) ∧
        (comment.kind = .documentation ↔ slice.IsDocumentation) ∧
        (comment.kind = .block ↔ ¬ slice.IsDocumentation ∧ "/*".toList <+: slice) ∧
        (comment.kind = .singleLine ↔ ¬ slice.IsDocumentation ∧ "//".toList <+: slice) ∧
        (comment.closingTag = "*/" ↔ "/*".toList <+: slice) := by
  intro tree
  refine ⟨_, rfl, fun comment member => ?_⟩
  obtain ⟨row, isRow, made⟩ := SyntaxTree.exists_row_of_mem_comments rfl member
  obtain ⟨_, _, sliced⟩ := SyntaxTree.region_of_comment? made
  refine ⟨row, isRow, _, made, rfl, sliced, ?_⟩
  obtain ⟨_, form, found, rfl⟩ := SyntaxTree.comment?_eq_some_iff.mp made
  have isForm := CommentTokens.csharp_form?_eq_some_iff.mp found
  refine ⟨fun closed => ?_, isForm.kind_iff⟩
  rw [← String.toList_inj]
  simp only [String.toList_append, String.toList_ofList]
  exact isForm.spells closed

end SourceAnnotations
