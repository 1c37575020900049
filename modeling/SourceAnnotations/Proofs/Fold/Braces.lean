import SourceAnnotations.Proofs.Fold.Producers
import SourceAnnotations.Proofs.Tree.Comments
import SourceAnnotations.Proofs.Tree.Leaves

/-!
# Where brace folds begin and end

A brace fold begins at the end of the last token before its opening brace.  That is monotone: the
fold of a later brace does not begin earlier, and no token before a brace reaches into its fold.
Both follow from the order of the leaves, because braces and tokens are leaves.
-/

namespace SourceAnnotations

/-! ## Braces without children -/

/-- Braces have no rows below them. -/
def Node.HasPlainBraces (root : Node) : Prop :=
  ∀ node ∈ root.preorder,
    node.kind = Kinds.openBrace ∨ node.kind = Kinds.closeBrace → node.children = []

instance (root : Node) : Decidable root.HasPlainBraces :=
  inferInstanceAs (Decidable (∀ node ∈ root.preorder,
    node.kind = Kinds.openBrace ∨ node.kind = Kinds.closeBrace → node.children = []))

namespace Cursor

variable {root : Node} {cursor first second : Cursor}

/-! ## Leaves at their places -/

/-- The cursor is at a leaf of the tree. -/
def IsLeafOf (root : Node) (cursor : Cursor) : Prop :=
  leavesBefore cursor.above ++ [cursor.focus] <+: root.leaves

theorem isLeafOf_of_mem_places (found : cursor ∈ places (fun _ => false) root [])
    (leaf : cursor.focus.children = []) : cursor.IsLeafOf root := by
  have before := (within_of_mem_places found).before
  rwa [Node.leaves_of_leaf leaf] at before

theorem Precedes.mem_leavesBefore (precedes : Precedes first second)
    (leaf : first.focus.children = []) : first.focus ∈ leavesBefore second.above := by
  rw [Precedes, Node.leaves_of_leaf leaf] at precedes
  exact precedes.subset (List.mem_append_right _ List.mem_cons_self)

namespace IsLeafOf

variable (leaf : cursor.IsLeafOf root)
include leaf

theorem mem_preorder : cursor.focus ∈ root.preorder :=
  (Node.mem_leaves_iff.mp
    (List.IsPrefix.subset leaf (List.mem_append_right _ List.mem_cons_self))).1

theorem before_mem_preorder {earlier : Node} (before : earlier ∈ leavesBefore cursor.above) :
    earlier ∈ root.preorder :=
  (Node.mem_leaves_iff.mp (List.IsPrefix.subset leaf (List.mem_append_left _ before))).1

variable (nested : root.IsNested)
include nested

/-- The leaves up to a leaf, it included, come one after the other. -/
theorem pairwise :
    (leavesBefore cursor.above ++ [cursor.focus]).Pairwise fun left right =>
      left.row.endByte ≤ right.row.startByte :=
  nested.leaves_pairwise.sublist (List.IsPrefix.sublist leaf)

theorem endByte_le {earlier : Node} (before : earlier ∈ leavesBefore cursor.above) :
    earlier.row.endByte ≤ cursor.row.startByte :=
  (List.pairwise_append.mp (leaf.pairwise nested)).2.2 earlier before cursor.focus
    List.mem_cons_self

end IsLeafOf

/-! ## The start of a fold -/

/-- A fold starts at the end of a token, or at its brace when there is no token before it. -/
theorem foldStart_cases (cursor : Cursor) :
    (∃ token ∈ leavesBefore cursor.above, token.isTrivia = false ∧
        cursor.foldStart = token.row.endByte) ∨
      (∀ leaf ∈ leavesBefore cursor.above, leaf.isTrivia) ∧
        cursor.foldStart = cursor.row.startByte := by
  rw [foldStart, previousToken?, tokenBefore?_eq]
  cases last : ((leavesBefore cursor.above).filter fun leaf => !leaf.isTrivia).getLast? with
  | none =>
      rw [List.getLast?_eq_none_iff, List.filter_eq_nil_iff] at last
      exact .inr ⟨fun leaf before => by simpa using last leaf before, rfl⟩
  | some token =>
      obtain ⟨before, proper⟩ := List.mem_filter.mp (List.mem_of_getLast? last)
      exact .inl ⟨token, before, by simpa using proper, rfl⟩

section

variable (nested : root.IsNested)
include nested

theorem foldStart_le (leaf : cursor.IsLeafOf root) :
    cursor.foldStart ≤ cursor.row.startByte := by
  rcases cursor.foldStart_cases with ⟨token, before, _, start⟩ | ⟨_, start⟩
  · rw [start]
    exact leaf.endByte_le nested before
  · exact Nat.le_of_eq start

/-- No token before a brace reaches into its fold. -/
theorem endByte_le_foldStart (leaf : cursor.IsLeafOf root) {token : Node}
    (before : token ∈ leavesBefore cursor.above) (proper : token.isTrivia = false) :
    token.row.endByte ≤ cursor.foldStart := by
  have kept : token ∈ (leavesBefore cursor.above).filter fun leaf => !leaf.isTrivia :=
    List.mem_filter.mpr ⟨before, by rw [proper]; rfl⟩
  rw [foldStart, previousToken?, tokenBefore?_eq]
  cases last : ((leavesBefore cursor.above).filter fun leaf => !leaf.isTrivia).getLast? with
  | none =>
      rw [List.getLast?_eq_none_iff.mp last] at kept
      cases kept
  | some final =>
      obtain ⟨others, split⟩ := List.getLast?_eq_some_iff.mp last
      have ordered := ((leaf.pairwise nested).sublist (List.sublist_append_left _ _)).filter
        fun leaf => !leaf.isTrivia
      rw [split] at ordered kept
      rcases List.mem_append.mp kept with earlier | same
      · have apart := (List.pairwise_append.mp ordered).2.2 token earlier final List.mem_cons_self
        have isLeaf : final ∈ leavesBefore cursor.above :=
          (List.mem_filter.mp (List.mem_of_getLast? last)).1
        exact Nat.le_trans apart (nested.forward (leaf.before_mem_preorder isLeaf))
      · obtain rfl := List.mem_singleton.mp same
        exact Nat.le_refl _

/-- The fold of a later brace does not start earlier. -/
theorem Precedes.foldStart_le (precedes : Precedes first second)
    (leafFirst : first.IsLeafOf root) (leafSecond : second.IsLeafOf root)
    (childless : first.focus.children = []) : first.foldStart ≤ second.foldStart := by
  have isBefore := precedes.mem_leavesBefore childless
  have allBefore : ∀ leaf ∈ leavesBefore first.above, leaf ∈ leavesBefore second.above :=
    fun leaf before => precedes.subset (List.mem_append_left _ before)
  rcases first.foldStart_cases with ⟨token, before, proper, start⟩ | ⟨trivia, start⟩
  · rw [start]
    exact endByte_le_foldStart nested leafSecond (allBefore token before) proper
  · have behind : first.row.startByte ≤ first.row.endByte :=
      nested.forward leafFirst.mem_preorder
    rw [start]
    rcases second.foldStart_cases with ⟨token, before, proper, startSecond⟩ | ⟨_, startSecond⟩
    · -- The token is the first brace or stands behind it, because all before it is trivia.
      rw [startSecond]
      obtain ⟨rest, split⟩ := precedes
      rw [Node.leaves_of_leaf childless] at split
      have ordered := (leafSecond.pairwise nested).sublist (List.sublist_append_left _ _)
      rw [← split] at before ordered
      rcases List.mem_append.mp before with upToFirst | afterFirst
      · rcases List.mem_append.mp upToFirst with beforeFirst | same
        · rw [trivia token beforeFirst] at proper
          cases proper
        · rw [List.mem_singleton.mp same]
          exact behind
      · have apart := (List.pairwise_append.mp ordered).2.2 first.focus
          (List.mem_append_right _ List.mem_cons_self) token afterFirst
        have tokenForward := nested.forward
          (leafSecond.before_mem_preorder (split ▸ List.mem_append_right _ afterFirst))
        exact Nat.le_trans behind (Nat.le_trans apart tokenForward)
    · rw [startSecond]
      exact Nat.le_trans behind (leafSecond.endByte_le nested isBefore)

end

/-! ## The braces of a row -/

/-- A row of the tree has two of its children as its braces. -/
structure HasBraces (root : Node) (holder opening closing : Cursor) : Prop where
  isPlace : holder ∈ places (fun _ => false) root []
  found : holder.braces? = some (opening, closing)

/-- The row with the braces is the place itself or a child of it. -/
theorem mem_places_of_braceHolder? {place holder : Cursor}
    (found : place ∈ places (fun _ => false) root []) (holds : place.braceHolder? = some holder) :
    holder ∈ places (fun _ => false) root [] := by
  rw [braceHolder?] at holds
  split at holds
  · cases holds
    exact found
  · refine mem_places_child found ?_
    rw [body?] at holds
    split at holds
    · next body called =>
      cases holds
      exact List.mem_of_find?_eq_some (Option.eq_some_of_filter_eq_some called)
    · exact (List.mem_filter.mp (List.mem_of_find?_eq_some holds)).1

namespace HasBraces

variable {holder opening closing : Cursor} (braces : HasBraces root holder opening closing)

section

include braces

theorem isOpening : opening ∈ holder.children :=
  (mem_of_braces? braces.found).1

theorem isClosing : closing ∈ holder.children :=
  (mem_of_braces? braces.found).2

theorem kinds :
    opening.kind = Kinds.openBrace ∧ closing.kind = Kinds.closeBrace ∧
      closing.row.isMissing = false := by
  have found := braces.found
  simp only [braces?, Option.bind_eq_bind, Option.bind_eq_some_iff, Option.pure_def,
    Option.some.injEq, Prod.mk.injEq] at found
  obtain ⟨_, first, _, last, rfl, rfl⟩ := found
  have openKind := List.find?_some first
  have closed := List.find?_some last
  rw [Bool.and_eq_true] at closed
  exact ⟨of_decide_eq_true openKind, of_decide_eq_true closed.1, by simpa using closed.2⟩

theorem opening_mem_places : opening ∈ places (fun _ => false) root [] :=
  mem_places_child braces.isPlace braces.isOpening

theorem closing_mem_places : closing ∈ places (fun _ => false) root [] :=
  mem_places_child braces.isPlace braces.isClosing

/-- The closing brace is a token. -/
theorem closing_not_isTrivia : closing.focus.isTrivia = false := by
  have kind : closing.focus.kind = Kinds.closeBrace := braces.kinds.2.1
  have present : closing.focus.row.isMissing = false := braces.kinds.2.2
  rw [Node.isTrivia, kind, present]
  rfl

end

variable (plain : root.HasPlainBraces)
include braces plain

theorem opening_childless : opening.focus.children = [] :=
  plain _ (within_of_mem_places braces.opening_mem_places).below (.inl braces.kinds.1)

theorem closing_childless : closing.focus.children = [] :=
  plain _ (within_of_mem_places braces.closing_mem_places).below (.inr braces.kinds.2.1)

theorem opening_isLeafOf : opening.IsLeafOf root :=
  isLeafOf_of_mem_places braces.opening_mem_places (braces.opening_childless plain)

theorem closing_isLeafOf : closing.IsLeafOf root :=
  isLeafOf_of_mem_places braces.closing_mem_places (braces.closing_childless plain)

/-- In a fold that spans lines the opening brace comes before the closing one. -/
theorem precedes (nested : root.IsNested) {index : LineIndex}
    (multiLine : (index.region opening.foldStart closing.row.endByte).isMultiLine) :
    Precedes opening closing := by
  rcases eq_or_precedes braces.isOpening braces.isClosing with rfl | before | behind
  · have same : Kinds.openBrace = Kinds.closeBrace :=
      braces.kinds.1.symm.trans braces.kinds.2.1
    exact absurd same (by decide)
  · exact before
  · -- The closing brace is a token before the opening one, so the region is empty.
    have reversed : closing.row.endByte ≤ opening.foldStart :=
      endByte_le_foldStart nested (braces.opening_isLeafOf plain)
        (behind.mem_leavesBefore (braces.closing_childless plain)) braces.closing_not_isTrivia
    have empty :
        (index.region opening.foldStart closing.row.endByte).start =
          (index.region opening.foldStart closing.row.endByte).stop := by
      change index.locationAt _ = index.locationAt (max _ _)
      rw [Nat.max_eq_right reversed]
    rw [Region.isMultiLine, empty] at multiLine
    exact absurd (of_decide_eq_true multiLine) (Nat.lt_irrefl _)

/-- A fold reaches from before its opening brace to the end of its closing one. -/
theorem ordered (nested : root.IsNested) (before : Precedes opening closing) :
    opening.foldStart ≤ opening.row.startByte ∧ opening.row.endByte ≤ closing.row.startByte ∧
      opening.foldStart ≤ closing.row.endByte := by
  have openingLeaf := braces.opening_isLeafOf plain
  have closingLeaf := braces.closing_isLeafOf plain
  have start := foldStart_le nested openingLeaf
  have apart :=
    closingLeaf.endByte_le nested (before.mem_leavesBefore (braces.opening_childless plain))
  have forwardOpening := nested.forward openingLeaf.mem_preorder
  have forwardClosing := nested.forward closingLeaf.mem_preorder
  exact ⟨start, apart, Nat.le_trans (Nat.le_trans start forwardOpening)
    (Nat.le_trans apart forwardClosing)⟩

end HasBraces

end Cursor

/-! ## Folds of braces -/

/-- The kinds of the folds between braces. -/
def FoldKind.isOfBraces : FoldKind → Bool
  | .namespaceBody | .typeBody | .member => true
  | _ => false

theorem kind_of_mem_commentFoldsAfter {collapse : Bool} {run : Option CommentRun}
    {comments : List Comment} {fold : Fold}
    (found : fold ∈ commentFoldsAfter collapse run comments) : fold.kind = .comment := by
  have ofRun {run : Option CommentRun} (found : fold ∈ runFold collapse run) :
      fold.kind = .comment := by
    cases run with
    | none => cases found
    | some run =>
        rw [runFold] at found
        split at found
        · rw [List.mem_singleton.mp found]
          rfl
        · cases found
  induction comments generalizing run with
  | nil => exact ofRun found
  | cons comment rest inductionHypothesis =>
      rw [commentFoldsAfter] at found
      split at found
      · rcases List.mem_append.mp found with atHead | later
        · rcases List.mem_append.mp atHead with ended | block
          · exact ofRun ended
          · rw [blockFold] at block
            split at block
            · rw [List.mem_singleton.mp block]
              rfl
            · cases block
        · exact inductionHypothesis later
      · split at found
        · exact inductionHypothesis found
        · rcases List.mem_append.mp found with ended | later
          · exact ofRun ended
          · exact inductionHypothesis later

/-- A fold of such a kind is that between the braces of a row. -/
theorem SyntaxTree.exists_hasBraces {tree : SyntaxTree} {comments : List Comment}
    {config : AnnotationConfig} {fold : Fold} (produced : tree.Produces comments config fold)
    (ofBraces : fold.kind.isOfBraces) :
    ∃ holder opening closing, Cursor.HasBraces tree.root holder opening closing ∧
      fold.region = tree.index.region opening.foldStart closing.row.endByte := by
  cases produced with
  | braces found hasKind between =>
      rw [braceRegion?] at between
      simp only [Option.bind_eq_bind, Option.bind_eq_some_iff, Option.pure_def,
        Option.some.injEq] at between
      obtain ⟨holder, holds, ⟨opening, closing⟩, braces, rfl⟩ := between
      have isPlace := Cursor.mem_places_of_braceHolder? (Cursor.mem_places_of_mem found) holds
      exact ⟨holder, opening, closing, ⟨isPlace, braces⟩, rfl⟩
  | imports => cases ofBraces
  | userRegion => cases ofBraces
  | comment _ found =>
      rw [kind_of_mem_commentFoldsAfter found] at ofBraces
      cases ofBraces

end SourceAnnotations
