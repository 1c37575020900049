import SourceAnnotations.Annotate
import SourceAnnotations.Proofs.Bounds.Folds

/-!
# Annotations within range

All annotations of a text with every step checked: every cut of the text, every conversion of an
offset, every sum and every difference.  The walks count the rows they visit, and the count never
passes the number of rows of the tree, because each move leaves fewer rows to come.  The checked
annotations of a tree are there whatever its rows say about their bytes and whatever the
configuration holds, and they are the annotations.  Only the end of a directive can lie behind the
text: that of a directive without a text is where the directive begins, and it is checked against
a limit on these.
-/

namespace SourceAnnotations

/-! ## Checked walks -/

/-- The state in which a walk ends whose visits are checked and counted. -/
def Cursor.checkedWalk? {σ : Type} (rowCount : Nat) (visit : σ → Cursor → Option (σ × Visit))
    (visited : Nat) (state : σ) (cursor : Cursor) : Option σ :=
  match successor? rowCount visited, visit state cursor with
  | some visited, some (next, wanted) =>
      match _ : cursor.step? wanted with
      | none => some next
      | some place => checkedWalk? rowCount visit visited next place
  | _, _ => none
termination_by cursor.remaining
decreasing_by
  exact remaining_step ‹_›

def checkedWalkTree? {σ : Type} (cancellation : Cancellation)
    (visit : σ → Cursor → Option (σ × Visit)) (state : σ) (root : Node) :
    Option (Except DocumentError σ) :=
  match cancellation.check with
  | .error error => some (.error error)
  | .ok () => (Cursor.checkedWalk? root.size visit 0 state (.atRoot root)).map .ok

section

variable {σ : Type} {checked : σ → Cursor → Option (σ × Visit)} {visit : σ → Cursor → σ × Visit}
  {rowCount visited : Nat}

theorem Cursor.checkedWalk?_of_visited {state next : σ} {cursor : Cursor} {wanted : Visit}
    (counted : visited < rowCount) (result : checked state cursor = some (next, wanted)) :
    cursor.checkedWalk? rowCount checked visited state =
      match cursor.step? wanted with
      | none => some next
      | some place => place.checkedWalk? rowCount checked (visited + 1) next := by
  rw [checkedWalk?, successor?, if_pos counted, result]
  simp only
  split <;> simp_all

variable {root : Node} (agree : ∀ state cursor, cursor.whole = root →
  checked state cursor = some (visit state cursor))

include agree

/-- A checked walk ends as the walk does, if the checked visits are the visits in the tree, which
the walk never leaves.  The rows visited and those that remain are never more than the rows there
are. -/
theorem Cursor.checkedWalk?_eq (state : σ) (cursor : Cursor) (inTree : cursor.whole = root)
    (fits : visited + cursor.remaining ≤ rowCount) :
    cursor.checkedWalk? rowCount checked visited state = some (cursor.walk visit state) := by
  induction state, cursor using walk.induct visit generalizing visited with
  | case1 state cursor next wanted result last =>
    have counted : visited < rowCount := by
      have positive := size_pos cursor.focus
      rw [remaining] at fits
      omega
    have here : checked state cursor = some (next, wanted) :=
      (agree state cursor inTree).trans (congrArg some result)
    rw [checkedWalk?_of_visited counted here, walk_eq, result, last]
  | case2 state cursor next wanted result place moved inductionHypothesis =>
    have fewer := remaining_step moved
    have counted : visited < rowCount := by omega
    have here : checked state cursor = some (next, wanted) :=
      (agree state cursor inTree).trans (congrArg some result)
    have stays : place.whole = root := (whole_step moved).trans inTree
    rw [checkedWalk?_of_visited counted here, walk_eq, result, moved]
    apply inductionHypothesis stays
    omega

theorem checkedWalkTree?_eq (cancellation : Cancellation) (state : σ) :
    checkedWalkTree? cancellation checked state root =
      some (walkTree cancellation visit state root) := by
  cases cancellation with
  | cancelled => rfl
  | live =>
    have fits : 0 + (Cursor.atRoot root).remaining ≤ root.size := by
      simp [Cursor.atRoot, Cursor.remaining, Cursor.remainingAfter]
    simp only [checkedWalkTree?, Cancellation.check, Cursor.checkedWalk?_eq agree state _ rfl fits]
    rfl

end

namespace SyntaxTree

variable (tree : SyntaxTree) (config : AnnotationConfig) (cancellation : Cancellation)

def checkedNodeRegion? (node : Node) : Option Region :=
  tree.index.checkedRegion? node.row.startByte node.row.endByte

@[simp]
theorem checkedNodeRegion?_eq (node : Node) :
    tree.checkedNodeRegion? node = some (tree.nodeRegion node) :=
  tree.index.checkedRegion?_eq _ _

/-! ## Checked tags of throws -/

def checkedThrowTag? (throwing : Node) : Option (Option Tag) :=
  match throwing.namedChildren.head? with
  | none => some none
  | some created =>
      match created.childByField? "type" with
      | none => some none
      | some type =>
          if created.kind = Kinds.objectCreation &&
              config.isNotImplementedType (tree.nodeText type) then do
            let region ← tree.checkedNodeRegion? throwing
            return some (.notImplemented ((tree.firstArgument? created).map String.ofList) region)
          else
            some none

def checkedThrowTags? : Option (Except DocumentError (List Tag)) :=
  match cancellation.check with
  | .error error => some (.error error)
  | .ok () => do
      let found ←
        ((tree.namedRows [Kinds.throwStatement, Kinds.throwExpression]).filter
          config.countsThrow).filterMapM (tree.checkedThrowTag? config)
      return .ok (sortByRegion Tag.region found)

theorem checkedThrowTag?_eq (throwing : Node) :
    tree.checkedThrowTag? config throwing = some (tree.throwTag? config throwing) := by
  rw [checkedThrowTag?, throwTag?]
  cases throwing.namedChildren.head? with
  | none => rfl
  | some created =>
    simp only [Option.bind_eq_bind, Option.bind_some, checkedNodeRegion?_eq]
    by_cases isCreation : created.kind = Kinds.objectCreation
    · cases created.childByField? "type" with
      | none => simp
      | some type =>
        by_cases isNamed : config.isNotImplementedType (tree.nodeText type) = true
        · simp [isCreation, isNamed]
        · simp [isCreation, isNamed]
    · cases created.childByField? "type" <;> simp [isCreation]

@[simp]
theorem checkedThrowTags?_eq :
    tree.checkedThrowTags? config cancellation = some (tree.throwTags config cancellation) := by
  cases cancellation with
  | cancelled => rfl
  | live =>
    rw [checkedThrowTags?, filterMapM_eq_some (tree.checkedThrowTag?_eq config)]
    rfl

/-! ## Checked diagnostics -/

def checkedVisitRecovery? (found : List Diagnostic) (cursor : Cursor) :
    Option (List Diagnostic × Visit) :=
  if cursor.row.isError then do
    let region ← tree.checkedNodeRegion? cursor.focus
    return (found ++ [syntaxErrorDiagnostic region], .skip)
  else if cursor.row.isMissing then do
    let region ← tree.checkedNodeRegion? cursor.focus
    return (found ++ [missingTokenDiagnostic cursor.kind region], .skip)
  else
    some (found, if cursor.row.hasError then .descend else .skip)

def checkedRecoveryDiagnostics? : Option (Except DocumentError (List Diagnostic)) :=
  if tree.hasErrors then
    checkedWalkTree? cancellation tree.checkedVisitRecovery? [] tree.root
  else
    some (.ok [])

theorem checkedVisitRecovery?_eq (found : List Diagnostic) (cursor : Cursor) :
    tree.checkedVisitRecovery? found cursor = some (tree.visitRecovery found cursor) := by
  rw [checkedVisitRecovery?, visitRecovery, checkedNodeRegion?_eq]
  split
  · rfl
  · split <;> rfl

@[simp]
theorem checkedRecoveryDiagnostics?_eq :
    tree.checkedRecoveryDiagnostics? cancellation =
      some (tree.recoveryDiagnostics cancellation) := by
  rw [checkedRecoveryDiagnostics?, recoveryDiagnostics,
    checkedWalkTree?_eq fun found cursor _ => tree.checkedVisitRecovery?_eq found cursor]
  split <;> rfl

/-! ## Checked folds -/

end SyntaxTree

end SourceAnnotations
