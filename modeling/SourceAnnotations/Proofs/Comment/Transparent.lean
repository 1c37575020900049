import Mathlib.Data.List.Basic
import Mathlib.Data.Option.Basic
import SourceAnnotations.Annotate
import SourceAnnotations.Proofs.Tree.Comments

/-!
# Comments are passed over

The tags of throws, the diagnostics of recovery and the folds of a tree do not depend on the
comments that stand between its other rows.  Every walker passes over them in its own way: by what
it takes for a child with a name, by looking for children of other kinds, and by what it takes for a
token.
-/

namespace SourceAnnotations

/-- The parsed text with the tree without its comments. -/
def SyntaxTree.withoutComments (tree : SyntaxTree) : SyntaxTree :=
  { tree with root := tree.root.withoutComments }

section

variable (tree : SyntaxTree)

/-! ## Tags of throws -/

theorem nodeText_withoutComments (node : Node) :
    tree.withoutComments.nodeText node.withoutComments = tree.nodeText node := by
  rw [SyntaxTree.nodeText, SyntaxTree.nodeText, node.row_withoutComments]
  rfl

theorem nodeRegion_withoutComments (node : Node) :
    tree.withoutComments.nodeRegion node.withoutComments = tree.nodeRegion node := by
  rw [SyntaxTree.nodeRegion, SyntaxTree.nodeRegion, node.row_withoutComments]
  rfl

variable {tree} {node : Node}

namespace Node.HasPlainComments

theorem firstArgument? (plain : node.HasPlainComments) :
    tree.withoutComments.firstArgument? node.withoutComments = tree.firstArgument? node := by
  rw [SyntaxTree.firstArgument?, SyntaxTree.firstArgument?, plain.childByField?]
  cases node.childByField? "arguments" with
  | none => rfl
  | some arguments =>
      have found :
          arguments.withoutComments.namedChildren.find?
              (fun child => child.kind = Kinds.argument) =
            (arguments.namedChildren.find? fun child => child.kind = Kinds.argument).map
              Node.withoutComments := by
        rw [namedChildren_withoutComments, List.find?_map]
        congr 2
        exact funext fun child => by rw [Function.comp_apply, kind_withoutComments]
      simp only [Option.map_some, Option.bind_eq_bind, Option.bind_some, found]
      cases arguments.namedChildren.find? fun child => child.kind = Kinds.argument with
      | none => rfl
      | some argument => exact congrArg some (nodeText_withoutComments tree argument)

theorem throwTag? (plain : node.HasPlainComments) (config : AnnotationConfig) :
    tree.withoutComments.throwTag? config node.withoutComments = tree.throwTag? config node := by
  rw [SyntaxTree.throwTag?, SyntaxTree.throwTag?, namedChildren_withoutComments, List.head?_map]
  cases first : node.namedChildren.head? with
  | none => rfl
  | some created =>
      have isChild : created ∈ node.children := (List.mem_filter.mp (List.mem_of_head? first)).1
      have plainCreated := plain.child isChild
      simp only [Option.map_some, Option.bind_eq_bind, Option.bind_some, kind_withoutComments,
        plainCreated.childByField?, plainCreated.firstArgument?, nodeRegion_withoutComments]
      cases created.childByField? "type" with
      | none => rfl
      | some type =>
          simp only [Option.map_some, Option.bind_some, nodeText_withoutComments]

end Node.HasPlainComments

namespace SyntaxTree

/-- Rows of other kinds than a comment's are found as in the tree with the comments. -/
theorem namedRows_withoutComments (plain : tree.root.HasPlainComments) {kinds : List String}
    (others : Kinds.comment ∉ kinds) :
    tree.withoutComments.namedRows kinds = (tree.namedRows kinds).map Node.withoutComments := by
  apply plain.filter_preorder
  · intro node
    rw [node.row_withoutComments, node.kind_withoutComments]
  · intro node comment
    have isComment : node.kind = Kinds.comment := of_decide_eq_true comment
    simp [isComment, others]

theorem throwTags_withoutComments (plain : tree.root.HasPlainComments)
    (config : AnnotationConfig) (cancellation : Cancellation) :
    tree.withoutComments.throwTags config cancellation = tree.throwTags config cancellation := by
  have throws :
      tree.withoutComments.namedRows [Kinds.throwStatement, Kinds.throwExpression] =
        (tree.namedRows [Kinds.throwStatement, Kinds.throwExpression]).map Node.withoutComments :=
    namedRows_withoutComments plain (by decide)
  have counted : config.countsThrow ∘ Node.withoutComments = config.countsThrow :=
    funext fun node => by
      rw [Function.comp_apply, AnnotationConfig.countsThrow, node.kind_withoutComments]
      rfl
  have tags :
      ((tree.namedRows [Kinds.throwStatement, Kinds.throwExpression]).filter
          config.countsThrow).filterMap
            (tree.withoutComments.throwTag? config ∘ Node.withoutComments) =
        ((tree.namedRows [Kinds.throwStatement, Kinds.throwExpression]).filter
          config.countsThrow).filterMap (tree.throwTag? config) := by
    apply List.filterMap_congr
    intro throwing found
    have inTree : throwing ∈ tree.root.preorder :=
      (List.mem_filter.mp (List.mem_filter.mp found).1).1
    exact (plain.of_mem inTree).throwTag? config
  simp only [throwTags, throws, List.filter_map, counted, List.filterMap_map, tags]

/-! ## Diagnostics of recovery -/

theorem recoveryDiagnostics_withoutComments (plain : tree.root.HasPlainComments)
    (whole : ∀ node ∈ tree.root.preorder, node.isComment →
      node.row.isError = false ∧ node.row.isMissing = false) (cancellation : Cancellation) :
    tree.withoutComments.recoveryDiagnostics cancellation =
      tree.recoveryDiagnostics cancellation := by
  have errors : tree.withoutComments.hasErrors = tree.hasErrors :=
    congrArg Row.hasError tree.root.row_withoutComments
  have walked :
      Cursor.walk tree.withoutComments.visitRecovery [] (.atRoot tree.withoutComments.root) =
        Cursor.walk tree.visitRecovery [] (.atRoot tree.root) := by
    apply Cursor.walk_withoutComments plain
    · intro found cursor _
      have region := nodeRegion_withoutComments tree cursor.focus
      rw [visitRecovery, visitRecovery, cursor.row_withoutComments, cursor.kind_withoutComments,
        Cursor.withoutComments, region]
    · intro comment inTree isComment above found
      obtain ⟨noError, notMissing⟩ := whole comment inTree isComment
      rw [visitRecovery, Cursor.row, noError, notMissing]
      rfl
  simp only [recoveryDiagnostics, errors, walkTree, walked]

end SyntaxTree

end

/-! ## Folds -/

namespace UsingRun

def withoutComments (run : UsingRun) : UsingRun :=
  ⟨run.first.withoutComments, run.last.withoutComments, run.isLong⟩

theorem extend_withoutComments (run : Option UsingRun) (directive : Node) :
    extend (run.map withoutComments) directive.withoutComments =
      (extend run directive).withoutComments := by
  cases run <;> rfl

theorem fold?_withoutComments (tree : SyntaxTree) (run : UsingRun) :
    run.withoutComments.fold? tree.withoutComments = run.fold? tree := by
  rw [fold?, fold?, withoutComments, Node.row_withoutComments, Node.row_withoutComments]
  rfl

theorem runs_withoutComments (run : Option UsingRun) (isLooking : Bool) (members : List Node) :
    usingRuns (run.map withoutComments) isLooking (members.map Node.withoutComments) =
      (usingRuns run isLooking members).map withoutComments := by
  have toList (run : Option UsingRun) :
      (run.map withoutComments).toList = run.toList.map withoutComments := by
    cases run <;> rfl
  induction members generalizing run isLooking with
  | nil => exact toList run
  | cons member rest inductionHypothesis =>
      have fresh (isLooking : Bool) := inductionHypothesis none isLooking
      have extended := inductionHypothesis (some (extend run member)) true
      rw [Option.map_none] at fresh
      rw [Option.map_some, ← extend_withoutComments] at extended
      have isUsing : member.withoutComments.isUsing = member.isUsing := by
        rw [Node.isUsing, Node.isUsing, Node.kind_withoutComments]
      rw [List.map_cons, usingRuns, usingRuns, Node.kind_withoutComments, isUsing, fresh, fresh,
        extended, inductionHypothesis, toList]
      simp only [apply_ite (List.map withoutComments), List.map_append]

end UsingRun

section

variable {tree : SyntaxTree} {node : Node} {cursor : Cursor}

theorem Node.HasPlainComments.scopeMembers (plain : node.HasPlainComments) :
    node.withoutComments.scopeMembers = node.scopeMembers.map Node.withoutComments := by
  have unnamed :
      node.withoutComments.children.eraseP (Node.hasField "name") =
        ((node.children.eraseP (Node.hasField "name")).filter fun child => !child.isComment).map
          Node.withoutComments := by
    rw [Node.children_withoutComments]
    exact eraseP_map_filter (Node.hasField_withoutComments "name") fun child isChild known =>
      (plain.child isChild).not_isComment_of_hasField known
  rw [Node.scopeMembers, Node.scopeMembers, unnamed]
  apply filter_map_filter
  · intro child
    rw [child.row_withoutComments, child.isTrivia_withoutComments]
  · intro child _ wanted
    rw [Bool.and_eq_true, Bool.not_eq_true'] at wanted
    exact Node.not_isComment_of_not_isTrivia wanted.2

theorem Node.HasPlainComments.usingFolds (plain : node.HasPlainComments) :
    tree.withoutComments.usingFolds node.withoutComments = tree.usingFolds node := by
  have runs := UsingRun.runs_withoutComments none true node.scopeMembers
  rw [Option.map_none] at runs
  rw [SyntaxTree.usingFolds, SyntaxTree.usingFolds, plain.scopeMembers, runs, List.filterMap_map]
  exact congrArg (fun fold? => List.filterMap fold? _)
    (funext (UsingRun.fold?_withoutComments tree))

namespace Cursor.HasPlainComments

theorem scopeFolds (plain : cursor.HasPlainComments) :
    tree.withoutComments.scopeFolds cursor.withoutComments = tree.scopeFolds cursor := by
  have own :
      tree.withoutComments.usingFolds cursor.withoutComments.focus =
        tree.usingFolds cursor.focus :=
    plain.focus.usingFolds
  rw [SyntaxTree.scopeFolds, SyntaxTree.scopeFolds, cursor.kind_withoutComments, own, plain.body?]
  cases found : cursor.body? with
  | none => rfl
  | some body =>
      have inBody :
          tree.withoutComments.usingFolds body.withoutComments.focus =
            tree.usingFolds body.focus :=
        (plain.of_body? found).focus.usingFolds
      simp only [Option.map_some, inBody]

theorem braceRegion? (plain : cursor.HasPlainComments) :
    tree.withoutComments.braceRegion? cursor.withoutComments = tree.braceRegion? cursor := by
  rw [SyntaxTree.braceRegion?, SyntaxTree.braceRegion?, plain.braceHolder?]
  cases found : cursor.braceHolder? with
  | none => rfl
  | some holder =>
      have plainHolder := plain.of_braceHolder? found
      simp only [Option.map_some, Option.bind_eq_bind, Option.bind_some, braces?_withoutComments]
      cases within : holder.braces? with
      | none => rfl
      | some braces =>
          obtain ⟨opening, closing⟩ := braces
          have plainOpening := plainHolder.child (mem_of_braces? within).1
          simp only [Option.map_some, Option.bind_some, plainOpening.foldStart,
            closing.row_withoutComments]
          rfl

theorem braceFold? (plain : cursor.HasPlainComments) :
    tree.withoutComments.braceFold? cursor.withoutComments = tree.braceFold? cursor := by
  rw [SyntaxTree.braceFold?, SyntaxTree.braceFold?, cursor.kind_withoutComments,
    plain.braceRegion?]

theorem visitFolds (plain : cursor.HasPlainComments) (config : AnnotationConfig)
    (scan : FoldScan) :
    tree.withoutComments.visitFolds config scan cursor.withoutComments =
      tree.visitFolds config scan cursor := by
  have text := nodeText_withoutComments tree cursor.focus
  have row := cursor.focus.row_withoutComments
  have begun :
      tree.withoutComments.openRegion cursor.withoutComments.focus =
        tree.openRegion cursor.focus := by
    rw [SyntaxTree.openRegion, SyntaxTree.openRegion, Cursor.withoutComments, text, row]
  have ended :
      scan.endRegion tree.withoutComments cursor.withoutComments.focus =
        scan.endRegion tree cursor.focus := by
    have directiveEnd :
        tree.withoutComments.directiveEnd cursor.withoutComments.focus =
          tree.directiveEnd cursor.focus := by
      rw [SyntaxTree.directiveEnd, SyntaxTree.directiveEnd, Cursor.withoutComments, text, row]
    rw [FoldScan.endRegion, FoldScan.endRegion]
    cases scan.openRegions with
    | nil => rfl
    | cons region others =>
        simp only [OpenRegion.fold, directiveEnd]
        rfl
  rw [SyntaxTree.visitFolds, SyntaxTree.visitFolds, cursor.kind_withoutComments, begun, ended,
    plain.scopeFolds, plain.braceFold?]

end Cursor.HasPlainComments

namespace SyntaxTree

/-- A comment adds no folds of its own. -/
theorem visitFolds_of_isComment {comment : Node} (isComment : comment.isComment)
    (config : AnnotationConfig) (scan : FoldScan) (above : List Frame) :
    (tree.visitFolds config scan ⟨comment, above⟩).1 = scan := by
  have kind : (⟨comment, above⟩ : Cursor).kind = Kinds.comment := of_decide_eq_true isComment
  have noBegin : Kinds.regionDirectives.contains Kinds.comment = false := by decide
  have noEnd : Kinds.endRegionDirectives.contains Kinds.comment = false := by decide
  have noScope : tree.scopeFolds ⟨comment, above⟩ = [] := by
    rw [scopeFolds, kind]
    rfl
  have noFold : tree.braceFold? ⟨comment, above⟩ = none := by
    rw [braceFold?, kind]
    rfl
  rw [visitFolds, kind, noBegin, noEnd, noScope, noFold]
  simp [FoldScan.add]

theorem foldings_withoutComments (plain : tree.root.HasPlainComments) (comments : List Comment)
    (config : AnnotationConfig) (cancellation : Cancellation) :
    tree.withoutComments.foldings comments config cancellation =
      tree.foldings comments config cancellation := by
  have walked :
      Cursor.walk (tree.withoutComments.visitFolds config) .empty
          (.atRoot tree.withoutComments.root) =
        Cursor.walk (tree.visitFolds config) .empty (.atRoot tree.root) :=
    Cursor.walk_withoutComments plain
      (fun scan cursor plain => plain.visitFolds config scan)
      (fun comment _ isComment above scan => visitFolds_of_isComment isComment config scan above)
      .empty
  simp only [foldings, walkTree, walked]

end SyntaxTree

end

/-- A tree with plain comments has the same tags of throws, diagnostics of recovery and folds as the
tree of its other rows, if the same comments are folded.  For the diagnostics the comments may be
neither errors nor missing. -/
theorem comments_are_passed_over (tree : SyntaxTree) (config : AnnotationConfig)
    (comments : List Comment) (cancellation : Cancellation)
    (plain : tree.root.HasPlainComments) :
    (¬ tree.root.isComment →
        Node.ofRows? ((tree.root.rows 0).filter fun placed => placed.2.kind ≠ Kinds.comment) =
          some tree.withoutComments.root) ∧
      tree.withoutComments.throwTags config cancellation = tree.throwTags config cancellation ∧
      ((∀ node ∈ tree.root.preorder, node.isComment →
          node.row.isError = false ∧ node.row.isMissing = false) →
        tree.withoutComments.recoveryDiagnostics cancellation =
          tree.recoveryDiagnostics cancellation) ∧
      tree.withoutComments.foldings comments config cancellation =
        tree.foldings comments config cancellation := by
  refine ⟨fun noComment => ?_, ?_, fun whole => ?_, ?_⟩
  · rw [← plain.rows noComment]
    exact Node.ofRows?_rows tree.withoutComments.root
  · exact SyntaxTree.throwTags_withoutComments plain config cancellation
  · exact SyntaxTree.recoveryDiagnostics_withoutComments plain whole cancellation
  · exact SyntaxTree.foldings_withoutComments plain comments config cancellation

/-- A throw with a comment before what is thrown. -/
def commentedThrow : SyntaxTree :=
  .ofText "throw /*a*/ new NotImplementedException();".toList
    (.mk ⟨"compilation_unit", true, false, false, false, 0, 42, none⟩
      [.mk ⟨"throw_statement", true, false, false, false, 0, 42, none⟩
        [.mk ⟨"throw", false, false, false, false, 0, 5, none⟩ [],
          .mk ⟨"comment", true, false, false, false, 6, 11, none⟩ [],
          .mk ⟨"object_creation_expression", true, false, false, false, 12, 41, none⟩
            [.mk ⟨"new", false, false, false, false, 12, 15, none⟩ [],
              .mk ⟨"identifier", true, false, false, false, 16, 39, some "type"⟩ []]]])

theorem comments_are_passed_over_throw :
    commentedThrow.root.HasPlainComments ∧
      commentedThrow.withoutComments.throwTags .default .live =
        commentedThrow.throwTags .default .live ∧
      (commentedThrow.throwTags .default .live).toOption.map List.length = some 1 ∧
      commentedThrow.withoutComments.recoveryDiagnostics .live =
        commentedThrow.recoveryDiagnostics .live ∧
      commentedThrow.withoutComments.foldings [] .default .live =
        commentedThrow.foldings [] .default .live := by
  have plain : commentedThrow.root.HasPlainComments := by decide
  obtain ⟨_, tags, diagnostics, folds⟩ :=
    comments_are_passed_over commentedThrow .default [] .live plain
  have tagged : (commentedThrow.throwTags .default .live).toOption.map List.length = some 1 := by
    decide +kernel
  exact ⟨plain, tags, tagged, diagnostics (by decide), folds⟩

end SourceAnnotations
