import SourceAnnotations.Proofs.Comment.Rows
import SourceAnnotations.Proofs.Text.Lines
import SourceAnnotations.Proofs.Tree.Leaves

/-!
# The first comment of a line

Whether a comment starts its line is read off the characters before it there, not off the tree.  In
a tree that leaves nothing but white space and a byte order mark between its leaves the two agree,
save for the mark: it belongs to no leaf and is not white space, so a comment right behind the mark
does not start its line.
-/

namespace SourceAnnotations

/-! ## What stands before a byte on its line -/

namespace Text

/-- One byte stands before another, and both are on one line. -/
def IsBeforeOnLine (text : Text) (earlier byte : Nat) : Prop :=
  earlier < byte ∧
    (LineIndex.ofText text).lineOfByte earlier = (LineIndex.ofText text).lineOfByte byte

instance (text : Text) (earlier byte : Nat) : Decidable (text.IsBeforeOnLine earlier byte) :=
  inferInstanceAs (Decidable (_ ∧ _))

/-- The text begins with a byte order mark, and a byte stands behind it on the first line. -/
def HasMarkBefore (text : Text) (byte : Nat) : Prop :=
  text.head? = some '\uFEFF' ∧ text.IsBeforeOnLine 0 byte

instance (text : Text) (byte : Nat) : Decidable (text.HasMarkBefore byte) :=
  inferInstanceAs (Decidable (_ ∧ _))

/-- A byte order mark is not white space. -/
theorem isSpaceByte_zero {text : Text} (marked : text.head? = some '\uFEFF') :
    text.isSpaceByte 0 = false := by
  have chars : text.charsBefore 0 = 0 := charsBefore_byteSize_append [] text
  rw [isSpaceByte, charOver?, chars, ← List.head?_eq_getElem?, marked]
  decide

/-- Where one byte of the mark stands before a byte on its line, so does the first. -/
theorem hasMarkBefore_of_isMarkByte {text : Text} {earlier byte : Nat}
    (before : text.IsBeforeOnLine earlier byte) (isMark : text.isMarkByte earlier = true) :
    text.HasMarkBefore byte := by
  rw [isMarkByte, Bool.and_eq_true, decide_eq_true_eq, decide_eq_true_eq] at isMark
  obtain ⟨chars, marked⟩ := isMark
  have sameChars : text.charsBefore 0 = text.charsBefore earlier :=
    (charsBefore_byteSize_append [] text).trans chars.symm
  refine ⟨marked, Nat.zero_lt_of_lt before.1, ?_⟩
  rw [← before.2, LineIndex.lineOfByte, LineIndex.lineOfByte]
  exact congrArg (fun chars => (text.take chars).count '\n') sameChars

end Text

namespace Node

/-- A row has a byte that is not white space before a byte on its line. -/
def IsSeenBefore (node : Node) (text : Text) (byte : Nat) : Prop :=
  ∃ earlier, text.IsBeforeOnLine earlier byte ∧ node.Covers earlier ∧
    text.isSpaceByte earlier = false

instance (node : Node) (text : Text) (byte : Nat) : Decidable (node.IsSeenBefore text byte) :=
  decidable_of_iff (∃ earlier < byte, text.IsBeforeOnLine earlier byte ∧ node.Covers earlier ∧
    text.isSpaceByte earlier = false)
    (exists_congr fun _ => and_iff_right_of_imp fun seen => seen.1.1)

/-- What no leaf of the tree covers is white space or the byte order mark of the text. -/
def LeavesBlank (root : Node) (text : Text) : Prop :=
  ∀ byte < text.byteSize, (∃ leaf ∈ root.leaves, leaf.Covers byte) ∨
    text.isSpaceByte byte ∨ text.isMarkByte byte

instance (root : Node) (text : Text) : Decidable (root.LeavesBlank text) :=
  inferInstanceAs (Decidable (∀ byte < text.byteSize, _))

end Node

/-! ## Comments that start their line -/

namespace SyntaxTree

variable {text : Text} {root row : Node} {tokens : CommentTokens} {comment : Comment}

theorem startsLine_of_comment?
    (made : (SyntaxTree.ofText text root).comment? tokens row = some comment) :
    comment.startsLine = true ↔
      ∀ earlier, text.IsBeforeOnLine earlier row.row.startByte →
        text.isSpaceByte earlier = true := by
  obtain ⟨front, rest, split, start, _⟩ := exists_around_of_comment? made
  obtain ⟨_, _, _, rfl⟩ := comment?_eq_some_iff.mp made
  have starts := Text.startsLineAt_byteSize_iff front
    ((SyntaxTree.ofText text root).commentText row ++
      (((SyntaxTree.ofText text root).nodeText row).lineEnd ++ rest))
  rw [← List.append_assoc, ← split, start] at starts
  exact starts.trans (forall_congr' fun _ => and_imp.symm)

end SyntaxTree

/-- In a tree that leaves only white space and a byte order mark between its leaves, a comment
starts its line exactly when no other leaf is seen before it there and the mark is not either. -/
theorem comments_start_lines_behind_no_mark (text : Text) (root : Node) (config : AnnotationConfig)
    (blank : root.LeavesBlank text) :
    let tree := SyntaxTree.ofText text root
    ∃ comments, tree.comments config .live = .ok comments ∧
      ∀ comment ∈ comments, ∃ row ∈ tree.namedRows [Kinds.comment],
        tree.comment? config.comment row = some comment ∧
        comment.region.startByte = row.row.startByte ∧
        (comment.startsLine = true ↔
          (∀ leaf ∈ root.leaves, leaf ≠ row → ¬ leaf.IsSeenBefore text row.row.startByte) ∧
            ¬ text.HasMarkBefore row.row.startByte) := by
  intro tree
  refine ⟨_, rfl, fun comment member => ?_⟩
  obtain ⟨row, isRow, made⟩ := SyntaxTree.exists_row_of_mem_comments rfl member
  refine ⟨row, isRow, made, (SyntaxTree.region_of_comment? made).1, ?_⟩
  rw [SyntaxTree.startsLine_of_comment? made]
  constructor
  · intro blankBefore
    refine ⟨?_, fun marked => ?_⟩
    · rintro leaf _ _ ⟨earlier, before, _, seen⟩
      rw [blankBefore earlier before] at seen
      cases seen
    · have space := blankBefore 0 marked.2
      rw [Text.isSpaceByte_zero marked.1] at space
      cases space
  · rintro ⟨notSeen, notMarked⟩ earlier before
    have inside := Nat.lt_trans before.1 (SyntaxTree.startByte_lt_of_comment? made)
    -- What is not blank is in the mark or in a leaf, which starts before the row and so is another.
    rcases blank earlier inside with ⟨leaf, isLeaf, covers⟩ | space | isMark
    · have isOther : leaf ≠ row := by
        rintro rfl
        exact Nat.lt_irrefl _ (Nat.lt_of_le_of_lt covers.1 before.1)
      by_contra seen
      exact notSeen leaf isLeaf isOther ⟨earlier, before, covers, Bool.not_eq_true _ ▸ seen⟩
    · exact space
    · exact absurd (Text.hasMarkBefore_of_isMarkByte before isMark) notMarked

/-- A byte order mark and two comments, each on a line of its own. -/
def markedComments : SyntaxTree :=
  .ofText "\uFEFF// a\n// b\n".toList <|
    .mk ⟨"compilation_unit", true, false, false, false, 3, 13, none⟩
      [.mk ⟨"comment", true, false, false, false, 3, 7, none⟩ [],
        .mk ⟨"comment", true, false, false, false, 8, 12, none⟩ []]

/-- No leaf is seen before the first comment, and still it does not start its line. -/
theorem comments_start_lines_behind_no_mark_first :
    markedComments.root.LeavesBlank markedComments.text ∧
      (∀ leaf ∈ markedComments.root.leaves, ¬ leaf.IsSeenBefore markedComments.text 3) ∧
        ∃ comments, markedComments.comments .default .live = .ok comments ∧
          (comments.map fun comment => (comment.region.startByte, comment.startsLine)) =
            [(3, false), (8, true)] ∧
          ∀ comment ∈ comments, ∃ row, comment.region.startByte = row.row.startByte ∧
            (comment.startsLine = true ↔
              (∀ leaf ∈ markedComments.root.leaves, leaf ≠ row →
                ¬ leaf.IsSeenBefore markedComments.text row.row.startByte) ∧
              ¬ markedComments.text.HasMarkBefore row.row.startByte) := by
  have blank : markedComments.root.LeavesBlank markedComments.text := by decide +kernel
  have made : markedComments.comments .default .live =
      .ok ((markedComments.namedRows [Kinds.comment]).filterMap
        (markedComments.comment? AnnotationConfig.default.comment)) :=
    SyntaxTree.comments_eq_of_perm .rfl (by decide +kernel)
  obtain ⟨comments, collected, starts⟩ :=
    comments_start_lines_behind_no_mark markedComments.text markedComments.root .default blank
  refine ⟨blank, by decide +kernel, comments, collected, ?_, fun comment member => ?_⟩
  · obtain rfl := Except.ok.inj (collected.symm.trans made)
    decide +kernel
  · obtain ⟨row, _, _, startByte, startsLine⟩ := starts comment member
    exact ⟨row, startByte, startsLine⟩

end SourceAnnotations
