import SourceAnnotations.Fold.Braces
import SourceAnnotations.Proofs.Tree.Rows
import SourceAnnotations.Proofs.Tree.Walk

/-!
# Trees without their comments

Comments may stand anywhere in a tree.  A tree without them has the same rows otherwise, at the same
depths.  The children that are looked for, the tokens and the braces are those of the tree with the
comments, as long as the comments are plain: single rows that have no field name and are never all
that is below a row.
-/

namespace SourceAnnotations

/-! ## Lists of which some items are kept -/

section

variable {α β : Type} {keep wanted : α → Bool} {wantedImage : β → Bool} {image : α → β}
  {items : List α}

theorem filter_map_filter (same : ∀ item, wantedImage (image item) = wanted item)
    (kept : ∀ item ∈ items, wanted item → keep item) :
    ((items.filter keep).map image).filter wantedImage = (items.filter wanted).map image := by
  rw [List.filter_map, List.filter_filter]
  congr 1
  apply List.filter_congr
  intro item member
  rw [Function.comp_apply, same]
  cases isWanted : wanted item with
  | false => rfl
  | true => rw [kept item member isWanted, Bool.and_self]

theorem find?_map_filter (same : ∀ item, wantedImage (image item) = wanted item)
    (kept : ∀ item ∈ items, wanted item → keep item) :
    ((items.filter keep).map image).find? wantedImage = (items.find? wanted).map image := by
  rw [← List.head?_filter, filter_map_filter same kept, List.head?_map, List.head?_filter]

theorem eraseP_map_filter (same : ∀ item, wantedImage (image item) = wanted item)
    (kept : ∀ item ∈ items, wanted item → keep item) :
    ((items.filter keep).map image).eraseP wantedImage =
      ((items.eraseP wanted).filter keep).map image := by
  induction items with
  | nil => rfl
  | cons item rest inductionHypothesis =>
      obtain ⟨keptHead, keptRest⟩ := List.forall_mem_cons.mp kept
      have behind := inductionHypothesis keptRest
      by_cases isWanted : wanted item
      · simp [isWanted, keptHead isWanted, same]
      · by_cases isKept : keep item
        · simp [isWanted, isKept, same, behind]
        · simp [isWanted, isKept, behind]

end

/-! ## Nodes -/

namespace Node

def isComment (node : Node) : Bool :=
  node.kind = Kinds.comment

mutual

/-- A node without the comments below it. -/
def withoutComments : Node → Node
  | mk row children => mk row (withoutCommentsOfAll children)

def withoutCommentsOfAll : List Node → List Node
  | [] => []
  | head :: tail =>
      if head.isComment then withoutCommentsOfAll tail
      else head.withoutComments :: withoutCommentsOfAll tail

end

/-- Comments are single rows without a field name, and no row has nothing but comments below it. -/
def HasPlainComments (root : Node) : Prop :=
  ∀ node ∈ root.preorder,
    (node.isComment → node.children = [] ∧ node.row.field = none) ∧
      (node.children ≠ [] → ∃ child ∈ node.children, ¬ child.isComment)

instance (root : Node) : Decidable root.HasPlainComments :=
  inferInstanceAs (Decidable (∀ node ∈ root.preorder,
    (node.isComment → node.children = [] ∧ node.row.field = none) ∧
      (node.children ≠ [] → ∃ child ∈ node.children, ¬ child.isComment)))

theorem row_withoutComments : (node : Node) → node.withoutComments.row = node.row
  | mk _ _ => by rw [withoutComments, row, row]

theorem withoutCommentsOfAll_eq (nodes : List Node) :
    withoutCommentsOfAll nodes =
      (nodes.filter fun node => !node.isComment).map withoutComments := by
  induction nodes with
  | nil => rfl
  | cons head tail inductionHypothesis =>
      rw [withoutCommentsOfAll, inductionHypothesis]
      by_cases comment : head.isComment
      · simp [comment]
      · simp [comment]

theorem children_withoutComments : (node : Node) →
    node.withoutComments.children =
      (node.children.filter fun child => !child.isComment).map withoutComments
  | mk _ nodes => by
      rw [withoutComments]
      exact withoutCommentsOfAll_eq nodes

theorem kind_withoutComments (node : Node) : node.withoutComments.kind = node.kind := by
  rw [kind, kind, row_withoutComments]

theorem isTrivia_withoutComments (node : Node) : node.withoutComments.isTrivia = node.isTrivia := by
  rw [isTrivia, isTrivia, kind_withoutComments, row_withoutComments]

theorem hasField_withoutComments (name : String) (node : Node) :
    node.withoutComments.hasField name = node.hasField name := by
  rw [hasField, hasField, row_withoutComments]

theorem not_isComment_of_not_isTrivia {node : Node} (noTrivia : node.isTrivia = false) :
    (!node.isComment) = true := by
  rw [isTrivia, Bool.or_eq_false_iff] at noTrivia
  rw [isComment, noTrivia.1, Bool.not_false]

theorem namedChildren_withoutComments (node : Node) :
    node.withoutComments.namedChildren = node.namedChildren.map withoutComments := by
  rw [namedChildren, children_withoutComments]
  apply filter_map_filter
  · intro child
    rw [row_withoutComments, isTrivia_withoutComments]
  · intro child _ wanted
    rw [Bool.and_eq_true, Bool.not_eq_true'] at wanted
    exact not_isComment_of_not_isTrivia wanted.2

namespace HasPlainComments

variable {node : Node}

theorem of_mem {root : Node} (plain : root.HasPlainComments) (below : node ∈ root.preorder) :
    node.HasPlainComments :=
  fun _ member => plain _ (mem_preorder_trans below member)

theorem child {child : Node} (plain : node.HasPlainComments) (isChild : child ∈ node.children) :
    child.HasPlainComments :=
  plain.of_mem (mem_preorder_of_child isChild (mem_preorder_self child))

theorem children_eq_nil (plain : node.HasPlainComments) (comment : node.isComment) :
    node.children = [] :=
  ((plain node (mem_preorder_self node)).1 comment).1

theorem not_isComment_of_hasField {name : String} (plain : node.HasPlainComments)
    (known : node.hasField name) : (!node.isComment) = true := by
  rw [Bool.not_eq_true', ← Bool.not_eq_true]
  intro comment
  have unknown := ((plain node (mem_preorder_self node)).1 comment).2
  rw [hasField, unknown] at known
  cases known

theorem childByField? (plain : node.HasPlainComments) (name : String) :
    node.withoutComments.childByField? name =
      (node.childByField? name).map withoutComments := by
  rw [Node.childByField?, children_withoutComments]
  exact find?_map_filter (hasField_withoutComments name) fun child isChild known =>
    (plain.child isChild).not_isComment_of_hasField known

end HasPlainComments

/-! ### Rows -/

theorem rowsOfAll_withoutComments {depth : Nat} {nodes : List Node}
    (each : ∀ node ∈ nodes, ¬ node.isComment →
      node.withoutComments.rows depth =
        (node.rows depth).filter fun placed => placed.2.kind ≠ Kinds.comment)
    (plain : ∀ node ∈ nodes, node.HasPlainComments) :
    rowsOfAll depth (withoutCommentsOfAll nodes) =
      (rowsOfAll depth nodes).filter fun placed => placed.2.kind ≠ Kinds.comment := by
  induction nodes with
  | nil => rfl
  | cons head tail inductionHypothesis =>
      obtain ⟨here, each⟩ := List.forall_mem_cons.mp each
      obtain ⟨plainHead, plain⟩ := List.forall_mem_cons.mp plain
      have behind := inductionHypothesis each plain
      rw [withoutCommentsOfAll, rowsOfAll, List.filter_append]
      by_cases comment : head.isComment
      · have alone := plainHead.children_eq_nil comment
        obtain ⟨row, children⟩ := head
        obtain rfl : children = [] := alone
        have isComment : row.kind = Kinds.comment := of_decide_eq_true comment
        rw [if_pos comment, behind, rows, rowsOfAll]
        simp [isComment]
      · rw [if_neg comment, rowsOfAll, behind, here comment]

/-- The rows without the comments are the others, at their depths. -/
theorem HasPlainComments.rows {node : Node} (plain : node.HasPlainComments)
    (noComment : ¬ node.isComment) (depth : Nat) :
    node.withoutComments.rows depth =
      (node.rows depth).filter fun placed => placed.2.kind ≠ Kinds.comment := by
  induction node generalizing depth with
  | mk row children inductionHypothesis =>
      have other : row.kind ≠ Kinds.comment := fun same => noComment (decide_eq_true same)
      have below :=
        rowsOfAll_withoutComments
          (fun child isChild noComment =>
            inductionHypothesis child isChild (plain.child isChild) noComment (depth + 1))
          fun child isChild => plain.child isChild
      rw [withoutComments, Node.rows, Node.rows, below, List.filter_cons_of_pos]
      exact decide_eq_true other

theorem preorderOfAll_withoutComments {wanted : Node → Bool} {nodes : List Node}
    (each : ∀ node ∈ nodes,
      node.withoutComments.preorder.filter wanted =
        (node.preorder.filter wanted).map withoutComments)
    (unwanted : ∀ node ∈ nodes, node.isComment → node.preorder.filter wanted = []) :
    (preorderOfAll (withoutCommentsOfAll nodes)).filter wanted =
      ((preorderOfAll nodes).filter wanted).map withoutComments := by
  induction nodes with
  | nil => rfl
  | cons head tail inductionHypothesis =>
      obtain ⟨here, each⟩ := List.forall_mem_cons.mp each
      obtain ⟨unwantedHead, unwanted⟩ := List.forall_mem_cons.mp unwanted
      have behind := inductionHypothesis each unwanted
      rw [withoutCommentsOfAll, preorderOfAll, List.filter_append, List.map_append]
      by_cases comment : head.isComment
      · rw [if_pos comment, behind, unwantedHead comment]
        rfl
      · rw [if_neg comment, preorderOfAll, List.filter_append, behind, here]

/-- Of the rows that are no comments the same are found. -/
theorem HasPlainComments.filter_preorder {node : Node} (plain : node.HasPlainComments)
    {wanted : Node → Bool} (same : ∀ node : Node, wanted node.withoutComments = wanted node)
    (unwanted : ∀ node : Node, node.isComment → wanted node = false) :
    node.withoutComments.preorder.filter wanted =
      (node.preorder.filter wanted).map withoutComments := by
  induction node with
  | mk row children inductionHypothesis =>
      have below :=
        preorderOfAll_withoutComments
          (fun child isChild => inductionHypothesis child isChild (plain.child isChild)) <| by
            intro child isChild comment
            have alone := (plain.child isChild).children_eq_nil comment
            have unwantedChild := unwanted child comment
            obtain ⟨row, children⟩ := child
            obtain rfl : children = [] := alone
            simp [preorder, preorderOfAll, unwantedChild]
      have here := same (mk row children)
      rw [withoutComments] at here ⊢
      rw [preorder, preorder, List.filter_cons, List.filter_cons, here, below]
      split
      · rw [List.map_cons, withoutComments]
      · rfl

/-! ### Tokens -/

theorem lastTokenOfAll?_withoutComments {nodes : List Node}
    (each : ∀ node ∈ nodes, node.withoutComments.lastToken? = node.lastToken?.map withoutComments)
    (plain : ∀ node ∈ nodes, node.isComment → node.lastToken? = none) :
    lastTokenOfAll? (withoutCommentsOfAll nodes) =
      (lastTokenOfAll? nodes).map withoutComments := by
  induction nodes with
  | nil => rfl
  | cons head tail inductionHypothesis =>
      obtain ⟨here, each⟩ := List.forall_mem_cons.mp each
      obtain ⟨noToken, plain⟩ := List.forall_mem_cons.mp plain
      have behind := inductionHypothesis each plain
      rw [withoutCommentsOfAll, lastTokenOfAll?]
      by_cases comment : head.isComment
      · rw [if_pos comment, behind, noToken comment]
        cases lastTokenOfAll? tail <;> rfl
      · rw [if_neg comment, lastTokenOfAll?, behind, here]
        cases lastTokenOfAll? tail <;> rfl

namespace HasPlainComments

variable {node : Node}

theorem lastToken?_of_isComment (plain : node.HasPlainComments) (comment : node.isComment) :
    node.lastToken? = none := by
  have alone := plain.children_eq_nil comment
  obtain ⟨row, children⟩ := node
  obtain rfl : children = [] := alone
  rw [isComment] at comment
  rw [Node.lastToken?, isTrivia, comment, Bool.true_or, if_pos rfl]

theorem lastToken? (plain : node.HasPlainComments) :
    node.withoutComments.lastToken? = node.lastToken?.map withoutComments := by
  induction node with
  | mk row children inductionHypothesis =>
      cases children with
      | nil =>
          rw [withoutComments, withoutCommentsOfAll, Node.lastToken?]
          split <;> rfl
      | cons head tail =>
          have ofAll :=
            lastTokenOfAll?_withoutComments
              (fun child isChild => inductionHypothesis child isChild (plain.child isChild))
              fun child isChild => (plain.child isChild).lastToken?_of_isComment
          obtain ⟨child, isChild, noComment⟩ :=
            (plain _ (mem_preorder_self _)).2 (List.cons_ne_nil head tail)
          rw [withoutComments, Node.lastToken?, ← ofAll]
          cases kept : withoutCommentsOfAll (head :: tail) with
          | nil =>
              rw [withoutCommentsOfAll_eq, List.map_eq_nil_iff, List.filter_eq_nil_iff] at kept
              exact absurd (by simpa using noComment) (kept child isChild)
          | cons first others => rw [Node.lastToken?]

end HasPlainComments

end Node

/-! ## Cursors -/

def Frame.withoutComments (frame : Frame) : Frame :=
  ⟨frame.parent, Node.withoutCommentsOfAll frame.earlier, Node.withoutCommentsOfAll frame.later⟩

namespace Cursor

def withoutComments (cursor : Cursor) : Cursor :=
  ⟨cursor.focus.withoutComments, cursor.above.map Frame.withoutComments⟩

/-- The comments at a cursor and before it are plain. -/
structure HasPlainComments (cursor : Cursor) : Prop where
  focus : cursor.focus.HasPlainComments
  earlier : ∀ frame ∈ cursor.above, ∀ node ∈ frame.earlier, node.HasPlainComments

theorem row_withoutComments (cursor : Cursor) : cursor.withoutComments.row = cursor.row :=
  cursor.focus.row_withoutComments

theorem kind_withoutComments (cursor : Cursor) : cursor.withoutComments.kind = cursor.kind := by
  rw [kind, kind, row_withoutComments]

theorem isBody_withoutComments (cursor : Cursor) :
    cursor.withoutComments.isBody = cursor.isBody := by
  rw [isBody, isBody, kind_withoutComments]

theorem childrenFrom_withoutComments (parent : Row) (above : List Frame)
    (earlier children : List Node) :
    childrenFrom parent (above.map Frame.withoutComments) (Node.withoutCommentsOfAll earlier)
        (Node.withoutCommentsOfAll children) =
      ((childrenFrom parent above earlier children).filter
        fun child => !child.focus.isComment).map withoutComments := by
  induction children generalizing earlier with
  | nil => rfl
  | cons child later inductionHypothesis =>
      have behind := inductionHypothesis (child :: earlier)
      rw [Node.withoutCommentsOfAll] at behind
      rw [Node.withoutCommentsOfAll, childrenFrom]
      by_cases comment : child.isComment
      · rw [if_pos comment] at behind ⊢
        simp [comment, behind]
      · rw [if_neg comment] at behind ⊢
        simp [comment, childrenFrom, behind, withoutComments, Frame.withoutComments]

theorem children_withoutComments (cursor : Cursor) :
    cursor.withoutComments.children =
      (cursor.children.filter fun child => !child.focus.isComment).map withoutComments := by
  obtain ⟨⟨row, nodes⟩, above⟩ := cursor
  exact childrenFrom_withoutComments row above [] nodes

theorem mem_childrenFrom {parent : Row} {above : List Frame} {earlier children : List Node}
    {child : Cursor} (isChild : child ∈ childrenFrom parent above earlier children) :
    child.focus ∈ children ∧
      ∃ frame, child.above = frame :: above ∧
        ∀ node ∈ frame.earlier, node ∈ earlier ∨ node ∈ children := by
  induction children generalizing earlier with
  | nil => cases isChild
  | cons head later inductionHypothesis =>
      rcases List.mem_cons.mp isChild with rfl | isLater
      · exact ⟨List.mem_cons_self, _, rfl, fun _ member => .inl member⟩
      · obtain ⟨member, frame, frames, before⟩ := inductionHypothesis isLater
        refine ⟨List.mem_cons_of_mem _ member, frame, frames, fun node isBefore => ?_⟩
        rcases before node isBefore with inEarlier | inLater
        · rcases List.mem_cons.mp inEarlier with rfl | inEarlier
          · exact .inr List.mem_cons_self
          · exact .inl inEarlier
        · exact .inr (List.mem_cons_of_mem _ inLater)

namespace HasPlainComments

variable {cursor : Cursor}

theorem child {child : Cursor} (plain : cursor.HasPlainComments)
    (isChild : child ∈ cursor.children) : child.HasPlainComments := by
  obtain ⟨member, frame, frames, before⟩ := mem_childrenFrom isChild
  refine ⟨plain.focus.child member, ?_⟩
  intro other isAbove node isEarlier
  rw [frames] at isAbove
  rcases List.mem_cons.mp isAbove with rfl | isAbove
  · rcases before node isEarlier with none | isSibling
    · cases none
    · exact plain.focus.child isSibling
  · exact plain.earlier other isAbove node isEarlier

theorem childByField? (plain : cursor.HasPlainComments) (name : String) :
    cursor.withoutComments.childByField? name =
      (cursor.childByField? name).map withoutComments := by
  rw [Cursor.childByField?, children_withoutComments]
  apply find?_map_filter
  · exact fun child => child.focus.hasField_withoutComments name
  · exact fun child isChild known => (plain.child isChild).focus.not_isComment_of_hasField known

end HasPlainComments

theorem namedChildren_withoutComments (cursor : Cursor) :
    cursor.withoutComments.namedChildren = cursor.namedChildren.map withoutComments := by
  rw [namedChildren, children_withoutComments]
  apply filter_map_filter
  · intro child
    rw [row_withoutComments]
    exact congrArg _ (congrArg _ child.focus.isTrivia_withoutComments)
  · intro child _ wanted
    rw [Bool.and_eq_true, Bool.not_eq_true'] at wanted
    exact Node.not_isComment_of_not_isTrivia wanted.2

/-! ### The token before -/

theorem findSome?_lastToken?_withoutComments {nodes : List Node}
    (plain : ∀ node ∈ nodes, node.HasPlainComments) :
    (Node.withoutCommentsOfAll nodes).findSome? Node.lastToken? =
      (nodes.findSome? Node.lastToken?).map Node.withoutComments := by
  induction nodes with
  | nil => rfl
  | cons head tail inductionHypothesis =>
      obtain ⟨plainHead, plain⟩ := List.forall_mem_cons.mp plain
      have behind := inductionHypothesis plain
      rw [Node.withoutCommentsOfAll, List.findSome?_cons]
      by_cases comment : head.isComment
      · rw [if_pos comment, behind, plainHead.lastToken?_of_isComment comment]
      · rw [if_neg comment, List.findSome?_cons, behind, plainHead.lastToken?]
        cases head.lastToken? <;> rfl

theorem tokenBefore?_withoutComments {above : List Frame}
    (plain : ∀ frame ∈ above, ∀ node ∈ frame.earlier, node.HasPlainComments) :
    tokenBefore? (above.map Frame.withoutComments) =
      (tokenBefore? above).map Node.withoutComments := by
  induction above with
  | nil => rfl
  | cons frame above inductionHypothesis =>
      obtain ⟨plainFrame, plain⟩ := List.forall_mem_cons.mp plain
      have beyond := inductionHypothesis plain
      have near := findSome?_lastToken?_withoutComments plainFrame
      rw [List.map_cons, tokenBefore?, Frame.withoutComments, near, beyond, tokenBefore?]
      cases frame.earlier.findSome? Node.lastToken? <;> rfl

/-! ### Bodies and braces -/

namespace HasPlainComments

variable {cursor : Cursor}

theorem body? (plain : cursor.HasPlainComments) :
    cursor.withoutComments.body? = cursor.body?.map withoutComments := by
  have named :
      cursor.withoutComments.namedChildren.find? isBody =
        (cursor.namedChildren.find? isBody).map withoutComments := by
    rw [namedChildren_withoutComments, List.find?_map]
    congr 2
    exact funext isBody_withoutComments
  have called :
      (cursor.withoutComments.childByField? "body").filter isBody =
        ((cursor.childByField? "body").filter isBody).map withoutComments := by
    rw [plain.childByField?]
    cases cursor.childByField? "body" with
    | none => rfl
    | some body =>
        rw [Option.map_some, Option.filter_some, Option.filter_some, isBody_withoutComments]
        split <;> rfl
  rw [Cursor.body?, Cursor.body?, called, named]
  cases (cursor.childByField? "body").filter isBody <;> rfl

theorem of_body? {body : Cursor} (plain : cursor.HasPlainComments)
    (isBody : cursor.body? = some body) : body.HasPlainComments := by
  rw [Cursor.body?] at isBody
  split at isBody
  · next found =>
      cases isBody
      exact plain.child (List.mem_of_find?_eq_some (Option.eq_some_of_filter_eq_some found))
  · exact plain.child (List.mem_filter.mp (List.mem_of_find?_eq_some isBody)).1

theorem braceHolder? (plain : cursor.HasPlainComments) :
    cursor.withoutComments.braceHolder? = cursor.braceHolder?.map withoutComments := by
  rw [Cursor.braceHolder?, Cursor.braceHolder?, kind_withoutComments, plain.body?]
  split <;> rfl

theorem of_braceHolder? {holder : Cursor} (plain : cursor.HasPlainComments)
    (holds : cursor.braceHolder? = some holder) : holder.HasPlainComments := by
  rw [Cursor.braceHolder?] at holds
  split at holds
  · cases holds
    exact plain
  · exact plain.of_body? holds

end HasPlainComments

/-- A row of another kind than a comment's is found among the children without the comments too. -/
theorem not_isComment_of_kind {cursor : Cursor} {kind : String} (isKind : cursor.kind = kind)
    (other : kind ≠ Kinds.comment) : (!cursor.focus.isComment) = true := by
  have noComment : ¬ cursor.focus.kind = Kinds.comment := by
    rw [show cursor.focus.kind = kind from isKind]
    exact other
  simp [Node.isComment, noComment]

theorem braces?_withoutComments (holder : Cursor) :
    holder.withoutComments.braces? =
      holder.braces?.map fun braces => (braces.1.withoutComments, braces.2.withoutComments) := by
  have opening :
      holder.withoutComments.children.find? (fun child => child.kind = Kinds.openBrace) =
        (holder.children.find? fun child => child.kind = Kinds.openBrace).map withoutComments := by
    rw [children_withoutComments]
    apply find?_map_filter
    · intro child
      rw [kind_withoutComments]
    · intro child _ isOpening
      exact not_isComment_of_kind (of_decide_eq_true isOpening) (by decide)
  have closing :
      holder.withoutComments.children.reverse.find?
          (fun child => child.kind = Kinds.closeBrace && !child.row.isMissing) =
        (holder.children.reverse.find?
          fun child => child.kind = Kinds.closeBrace && !child.row.isMissing).map
            withoutComments := by
    rw [children_withoutComments, ← List.map_reverse, ← List.filter_reverse]
    apply find?_map_filter
    · intro child
      rw [kind_withoutComments, row_withoutComments]
    · intro child _ isClosing
      rw [Bool.and_eq_true] at isClosing
      exact not_isComment_of_kind (of_decide_eq_true isClosing.1) (by decide)
  rw [braces?, braces?, opening, closing]
  cases holder.children.find? fun child => child.kind = Kinds.openBrace with
  | none => rfl
  | some opening =>
      cases holder.children.reverse.find?
          fun child => child.kind = Kinds.closeBrace && !child.row.isMissing <;>
        rfl

theorem mem_of_braces? {holder opening closing : Cursor}
    (found : holder.braces? = some (opening, closing)) :
    opening ∈ holder.children ∧ closing ∈ holder.children := by
  simp only [braces?, Option.bind_eq_bind, Option.bind_eq_some_iff, Option.pure_def,
    Option.some.injEq, Prod.mk.injEq] at found
  obtain ⟨_, first, _, last, rfl, rfl⟩ := found
  exact ⟨List.mem_of_find?_eq_some first,
    List.mem_reverse.mp (List.mem_of_find?_eq_some last)⟩

theorem HasPlainComments.foldStart {cursor : Cursor} (plain : cursor.HasPlainComments) :
    cursor.withoutComments.foldStart = cursor.foldStart := by
  rw [Cursor.foldStart, Cursor.foldStart, previousToken?, previousToken?, withoutComments,
    tokenBefore?_withoutComments plain.earlier]
  cases tokenBefore? cursor.above with
  | none => exact congrArg Row.startByte cursor.row_withoutComments
  | some token => exact congrArg Row.endByte token.row_withoutComments

/-! ### Walks -/

section

variable {σ : Type} {visit other : σ → Cursor → σ × Visit}

theorem scanAll_withoutComments {children : List Node} {parent : Row} {above : List Frame}
    {earlier : List Node} {state : σ}
    (each : ∀ child ∈ children, ∀ above state,
      (⟨child, above⟩ : Cursor).HasPlainComments →
        scan other state child.withoutComments (above.map Frame.withoutComments) =
          scan visit state child above)
    (passes : ∀ child ∈ children, child.isComment →
      ∀ above state, scan visit state child above = state)
    (plain : ∀ child ∈ children, child.HasPlainComments)
    (plainEarlier : ∀ node ∈ earlier, node.HasPlainComments)
    (plainAbove : ∀ frame ∈ above, ∀ node ∈ frame.earlier, node.HasPlainComments) :
    scanAll other parent (above.map Frame.withoutComments) state
        (Node.withoutCommentsOfAll earlier) (Node.withoutCommentsOfAll children) =
      scanAll visit parent above state earlier children := by
  induction children generalizing earlier state with
  | nil => rw [Node.withoutCommentsOfAll, scanAll, scanAll]
  | cons child later inductionHypothesis =>
      obtain ⟨here, each⟩ := List.forall_mem_cons.mp each
      obtain ⟨passesHead, passes⟩ := List.forall_mem_cons.mp passes
      obtain ⟨plainHead, plain⟩ := List.forall_mem_cons.mp plain
      have plainNext : ∀ node ∈ child :: earlier, node.HasPlainComments :=
        List.forall_mem_cons.mpr ⟨plainHead, plainEarlier⟩
      have behind (next : σ) :
          scanAll other parent (above.map Frame.withoutComments) next
              (Node.withoutCommentsOfAll (child :: earlier)) (Node.withoutCommentsOfAll later) =
            scanAll visit parent above next (child :: earlier) later :=
        inductionHypothesis each passes plain plainNext
      rw [Node.withoutCommentsOfAll] at behind
      rw [Node.withoutCommentsOfAll, scanAll]
      by_cases comment : child.isComment
      · rw [passesHead comment, ← behind, if_pos comment, if_pos comment]
      · have plainHere :
            (⟨child, ⟨parent, earlier, later⟩ :: above⟩ : Cursor).HasPlainComments :=
          ⟨plainHead, List.forall_mem_cons.mpr ⟨plainEarlier, plainAbove⟩⟩
        have visited := here _ state plainHere
        rw [List.map_cons, Frame.withoutComments] at visited
        rw [← behind, if_neg comment, if_neg comment, scanAll, visited]

/-- A scan that sees the same rows and passes over comments ends in the same state. -/
theorem scan_withoutComments
    (same : ∀ state cursor, cursor.HasPlainComments →
      other state cursor.withoutComments = visit state cursor)
    {node : Node} {above : List Frame} {state : σ}
    (passes : ∀ comment ∈ node.preorder, comment.isComment →
      ∀ above state, (visit state ⟨comment, above⟩).1 = state)
    (plain : (⟨node, above⟩ : Cursor).HasPlainComments) :
    scan other state node.withoutComments (above.map Frame.withoutComments) =
      scan visit state node above := by
  induction node generalizing above state with
  | mk row children inductionHypothesis =>
      have here := same state ⟨.mk row children, above⟩ plain
      rw [withoutComments, Node.withoutComments] at here
      rw [Node.withoutComments, scan, here, scan]
      rcases visit state ⟨.mk row children, above⟩ with ⟨next, wanted⟩
      cases wanted with
      | skip => rfl
      | descend =>
          have passesBelow {child : Node} (isChild : child ∈ children) :
              ∀ comment ∈ child.preorder, comment.isComment →
                ∀ above state, (visit state ⟨comment, above⟩).1 = state :=
            fun comment below => passes comment (Node.mem_preorder_of_child isChild below)
          have plainChild {child : Node} (isChild : child ∈ children) : child.HasPlainComments :=
            plain.focus.child isChild
          have scanned :
              scanAll other row (above.map Frame.withoutComments) next
                  (Node.withoutCommentsOfAll []) (Node.withoutCommentsOfAll children) =
                scanAll visit row above next [] children := by
            refine scanAll_withoutComments ?_ ?_ (fun child => plainChild) ?_ plain.earlier
            · intro child isChild above state
              exact inductionHypothesis child isChild (passesBelow isChild)
            · intro child isChild comment above state
              rw [scan_of_leaf visit state above ((plainChild isChild).children_eq_nil comment)]
              exact passesBelow isChild child (Node.mem_preorder_self child) comment above state
            · exact fun _ none => absurd none List.not_mem_nil
          exact scanned

theorem walk_withoutComments {root : Node} (plain : root.HasPlainComments)
    (same : ∀ state cursor, cursor.HasPlainComments →
      other state cursor.withoutComments = visit state cursor)
    (passes : ∀ comment ∈ root.preorder, comment.isComment →
      ∀ above state, (visit state ⟨comment, above⟩).1 = state) (state : σ) :
    walk other state (.atRoot root.withoutComments) = walk visit state (.atRoot root) := by
  rw [walk_atRoot, walk_atRoot]
  have atRoot : (⟨root, []⟩ : Cursor).HasPlainComments :=
    ⟨plain, fun _ none => absurd none List.not_mem_nil⟩
  exact scan_withoutComments same passes atRoot

end

end Cursor

end SourceAnnotations
