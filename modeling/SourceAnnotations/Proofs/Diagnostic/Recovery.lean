import Mathlib.Data.List.Induction
import SourceAnnotations.Proofs.Document.Transparency
import SourceAnnotations.Proofs.Tree.Outermost

/-!
# Recovery rows

The walk for the diagnostics passes over whatever has no error according to the flags of the rows,
and goes on below no recovery row.  Where the flags tell the truth it comes to the outermost
recovery rows, just as a walk through the whole tree would that leaves out those below others.
-/

namespace SourceAnnotations

/-- Whether a parser has gone on after a fault here. -/
def Row.isRecovery (row : Row) : Bool :=
  row.isError || row.isMissing

/-! ## Truthful flags -/

namespace Node

/-- A row has the flag of an error exactly when it or a row below it is a recovery row. -/
def HasTruthfulFlags (root : Node) : Prop :=
  ∀ node ∈ root.preorder, node.row.hasError = node.preorder.any fun below => below.row.isRecovery

instance (root : Node) : Decidable root.HasTruthfulFlags :=
  inferInstanceAs (Decidable (∀ node ∈ root.preorder,
    node.row.hasError = node.preorder.any fun below => below.row.isRecovery))

theorem HasTruthfulFlags.hasError_eq_false_iff {root node : Node}
    (truthful : root.HasTruthfulFlags) (inTree : node ∈ root.preorder) :
    node.row.hasError = false ↔ ∀ below ∈ node.preorder, below.row.isRecovery = false := by
  rw [truthful node inTree, List.any_eq_false]
  exact forall₂_congr fun _ _ => Bool.not_eq_true _ ▸ Iff.rfl

end Node

namespace SyntaxTree

/-- The diagnostic of a recovery row. -/
def recoveryDiagnostic (tree : SyntaxTree) (node : Node) : Diagnostic :=
  if node.row.isError then
    syntaxErrorDiagnostic (tree.nodeRegion node)
  else
    missingTokenDiagnostic node.kind (tree.nodeRegion node)

/-- The recovery rows that are below no other, in the order of the text. -/
def recoverySites (tree : SyntaxTree) : List Node :=
  tree.root.outermost Row.isRecovery

variable {tree : SyntaxTree}

/-! ## The pruned walk -/

/-- Whether the walk does not look below a place. -/
def isPruned (cursor : Cursor) : Bool :=
  cursor.row.isRecovery || !cursor.row.hasError

theorem visitRecovery_eq (found : List Diagnostic) (cursor : Cursor) :
    tree.visitRecovery found cursor =
      (found ++ if cursor.row.isRecovery then [tree.recoveryDiagnostic cursor.focus] else [],
        if isPruned cursor then .skip else .descend) := by
  rw [visitRecovery, isPruned, Row.isRecovery]
  by_cases isError : cursor.row.isError
  · have made : tree.recoveryDiagnostic cursor.focus =
        syntaxErrorDiagnostic (tree.nodeRegion cursor.focus) :=
      if_pos isError
    simp [isError, made]
  · have made : tree.recoveryDiagnostic cursor.focus =
        missingTokenDiagnostic cursor.kind (tree.nodeRegion cursor.focus) :=
      if_neg isError
    by_cases isMissing : cursor.row.isMissing
    · simp [isError, isMissing, made]
    · by_cases hasError : cursor.row.hasError <;> simp [isError, isMissing, hasError]

theorem visitRecovery_decides (tree : SyntaxTree) :
    Cursor.Decides isPruned tree.visitRecovery := by
  intro found cursor
  rw [visitRecovery_eq]

/-- What the walk has found after some places. -/
theorem foldl_visitRecovery (places : List Cursor) :
    places.foldl (fun found place => (tree.visitRecovery found place).1) [] =
      ((places.filter fun place => place.row.isRecovery).map Cursor.focus).map
        tree.recoveryDiagnostic := by
  induction places using List.reverseRecOn with
  | nil => rfl
  | append_singleton places last inductionHypothesis =>
      rw [List.foldl_append, inductionHypothesis, List.foldl_cons, List.foldl_nil,
        visitRecovery_eq, List.filter_append, List.map_append, List.map_append, List.filter_cons]
      cases last.row.isRecovery <;> rfl

variable (truthful : tree.root.HasTruthfulFlags)
include truthful

/-- The pruned walk misses no outermost recovery row. -/
theorem filter_places_eq_recoverySites :
    ((Cursor.places isPruned tree.root []).filter fun place => place.row.isRecovery).map
      Cursor.focus = tree.recoverySites := by
  rw [recoverySites, Node.outermost, Cursor.filter_places]
  · rfl
  · intro cursor isRecovery
    rw [isPruned, isRecovery, Bool.true_or]
  · intro cursor inTree pruned notRecovery
    rw [isPruned, notRecovery, Bool.false_or, Bool.not_eq_true'] at pruned
    exact (truthful.hasError_eq_false_iff inTree).mp pruned
  · exact List.forall_mem_nil _

theorem recoverySites_eq_nil_iff : tree.recoverySites = [] ↔ tree.hasErrors = false := by
  rw [hasErrors, truthful.hasError_eq_false_iff (Node.mem_preorder_self _), recoverySites,
    Node.outermost, List.map_eq_nil_iff]
  exact Cursor.outermost_eq_nil_iff (List.forall_mem_nil _)

theorem recoveryDiagnostics_live :
    tree.recoveryDiagnostics .live = .ok (tree.recoverySites.map tree.recoveryDiagnostic) := by
  rw [recoveryDiagnostics]
  by_cases hasErrors : tree.hasErrors
  · have walked : Cursor.walk tree.visitRecovery [] (.atRoot tree.root) =
        tree.recoverySites.map tree.recoveryDiagnostic := by
      rw [Cursor.walk_eq_foldl (visitRecovery_decides tree), foldl_visitRecovery,
        filter_places_eq_recoverySites truthful]
    rw [if_pos hasErrors, ← walked]
    rfl
  · rw [if_neg hasErrors,
      (recoverySites_eq_nil_iff truthful).mpr (Bool.eq_false_iff.mpr hasErrors), List.map_nil]

omit truthful in
/-- A caller who cancels gets the same diagnostics or none. -/
theorem recoveryDiagnostics_live_of_ok {cancellation : Cancellation}
    {diagnostics : List Diagnostic}
    (answered : tree.recoveryDiagnostics cancellation = .ok diagnostics) :
    tree.recoveryDiagnostics .live = .ok diagnostics := by
  cases cancellation with
  | live => exact answered
  | cancelled =>
      rw [recoveryDiagnostics] at answered ⊢
      by_cases hasErrors : tree.hasErrors
      · rw [if_pos hasErrors] at answered
        cases answered
      · rw [if_neg hasErrors] at answered ⊢
        exact answered

omit truthful in
/-- All of them are shown to a host. -/
theorem reportedErrors_map_recoveryDiagnostic (nodes : List Node) :
    reportedErrors (nodes.map tree.recoveryDiagnostic) =
      nodes.map fun node => (tree.recoveryDiagnostic node).report := by
  have all : (nodes.map tree.recoveryDiagnostic).filter (fun diagnostic =>
      diagnostic.severity.isReported) = nodes.map tree.recoveryDiagnostic := by
    refine List.filter_eq_self.mpr (List.forall_mem_map.mpr fun node _ => ?_)
    rw [recoveryDiagnostic]
    split <;> rfl
  rw [reportedErrors, all, List.map_map]
  rfl

end SyntaxTree

/-! ## Errors of a document -/

namespace Session

/-- Every answer so far is one of the models of the beginning. -/
theorem answers_invariant (start : Session) :
    Invariant fun past session =>
      (∀ number, (session.model number).model = (start.model number).model) ∧
        ∀ number diagnostics, .answered number diagnostics ∈ past →
          ∃ count cancellation,
            (start.model number).model count cancellation = .ok diagnostics where
  counted number holds :=
    ⟨fun other => (model_counted _ number other).trans (holds.1 other), holds.2⟩
  changed holds holdsBetween change := by
    refine ⟨by cases change <;> exact holdsBetween.1, fun number diagnostics answered => ?_⟩
    rcases List.mem_append.mp answered with earlier | own
    · exact holdsBetween.2 number diagnostics earlier
    · cases change with
      | nothing => cases own
      | listed => cases own
      | shared => cases own
      | treeSet => cases List.mem_singleton.mp own
      | configured => cases List.mem_singleton.mp own
      | attached => cases List.mem_singleton.mp own
      | detached => cases List.mem_singleton.mp own
      | answered _ _ given =>
          cases List.mem_singleton.mp own
          rw [answer, holds.1] at given
          exact ⟨_, _, given⟩

end Session

theorem mem_of_mem_sinceAttachment {past : List Event} {event : Event}
    (since : event ∈ sinceAttachment past) : event ∈ past := by
  rw [sinceAttachment, List.mem_reverse] at since
  exact List.mem_reverse.mp ((List.takeWhile_sublist _).subset since)

/-- With the model of a tree's recovery rows attached, the errors are the diagnostics of the tree,
and a caller who has not cancelled gets them. -/
theorem Explained.recovery_answer {first : Shared SyntaxTree} {call : Call} {depth number : Nat}
    {cancellation : Cancellation} {tree : SyntaxTree} {diagnostics : List Diagnostic}
    (explained : Explained first call.past call.before)
    (explainedAfter : Explained first (call.past ++ call.during) call.after)
    (performed : Session.perform depth call.operation call.before = (call.outcome, call.after))
    (called : call.operation = .errors cancellation)
    (attached : attachedModel call.past = some number)
    (isRecovery : (call.before.model number).model = .recovery tree)
    (answers : ∀ given, .answered number given ∈ call.past ++ call.during →
      ∃ count cancellation, Model.recovery tree count cancellation = .ok given)
    (live : tree.recoveryDiagnostics .live = .ok diagnostics) :
    ∃ result outcomes, call.outcome = .errors result outcomes ∧
      (cancellation = .live → ∃ shared, result = .ok shared) ∧
        ∀ shared, result = .ok shared → shared.value = reportedErrors diagnostics := by
  obtain ⟨result, outcomes, outcome, _, reported⟩ :=
    explained.errors_answer explainedAfter performed called
  obtain ⟨result', outcomes', after, performed', errorsCall⟩ :=
    Session.perform_errors depth cancellation call.before
  have same : Outcome.errors result' outcomes' = .errors result outcomes := by
    rw [called, performed'] at performed
    exact (congrArg Prod.fst performed).trans outcome
  obtain ⟨rfl, rfl⟩ := Outcome.errors.inj same
  refine ⟨result', outcomes', outcome, ?_, ?_⟩
  · rintro rfl
    cases errorsCall with
    | detached => exact ⟨_, rfl⟩
    | hit => exact ⟨_, rfl⟩
    | answered => exact ⟨_, rfl⟩
    | failed attached' _ _ failed =>
        obtain rfl := Option.some.inj (attached'.symm.trans (explained.model.trans attached))
        rw [Session.answer, isRecovery, Model.recovery, live] at failed
        cases failed
  · intro shared isShared
    obtain ⟨given, answered, value⟩ := reported number shared attached isShared
    have sofar : .answered number given ∈ call.past ++ call.during :=
      (List.mem_append.mp answered).elim
        (fun since => List.mem_append_left _ (mem_of_mem_sinceAttachment since))
        (List.mem_append_right _)
    obtain ⟨_, _, gave⟩ := answers given sofar
    have sameList := (SyntaxTree.recoveryDiagnostics_live_of_ok gave).symm.trans live
    rw [value, Except.ok.inj sameList]

/-- Where the flags of a tree are truthful, its diagnostics are one for each recovery row that is
below no other, in the order of the text.  So there are none, and no errors of a document that the
model of the tree is attached to, exactly when the tree has no errors. -/
theorem recovery_diagnostics_are_outermost (tree : SyntaxTree)
    (truthful : tree.root.HasTruthfulFlags) :
    tree.recoveryDiagnostics .live = .ok (tree.recoverySites.map tree.recoveryDiagnostic) ∧
      tree.recoverySites.Sublist tree.root.preorder ∧
      (tree.recoverySites.map tree.recoveryDiagnostic = [] ↔ tree.hasErrors = false) ∧
      ∀ (fileName : String) (first : Shared SyntaxTree) (models : List ModelState)
        (operations : List Operation),
        let session : Session := ⟨.ofTree fileName first, models⟩
        ∀ call ∈ session.history operations, ∀ cancellation number,
          call.operation = .errors cancellation → attachedModel call.past = some number →
            (session.model number).model = .recovery tree →
              ∃ result outcomes, call.outcome = .errors result outcomes ∧
                (cancellation = .live → ∃ shared, result = .ok shared) ∧
                  ∀ shared, result = .ok shared →
                    (shared.value = tree.recoverySites.map fun site =>
                      (tree.recoveryDiagnostic site).report) ∧
                    (shared.value = [] ↔ tree.hasErrors = false) := by
  have live := SyntaxTree.recoveryDiagnostics_live truthful
  have none := SyntaxTree.recoverySites_eq_nil_iff truthful
  refine ⟨live, tree.root.outermost_sublist_preorder _, by rw [List.map_eq_nil_iff, none], ?_⟩
  intro fileName first models operations session call member cancellation number called attached
    isRecovery
  have unfolds := session.history_unfolds operations
  obtain ⟨explained, _⟩ :=
    unfolds.preserves (Explained.invariant first) (.start fileName first models)
  obtain ⟨answers, _⟩ := unfolds.preserves session.answers_invariant ⟨fun _ => rfl, nofun⟩
  obtain ⟨⟨depth, performed⟩, _⟩ := unfolds.performed call member
  obtain ⟨before, after⟩ := explained call member
  obtain ⟨⟨sameModels, _⟩, _, answered⟩ := answers call member
  obtain ⟨result, outcomes, outcome, isLive, reported⟩ :=
    before.recovery_answer after performed called attached
      ((sameModels number).trans isRecovery) (isRecovery ▸ answered number) live
  refine ⟨result, outcomes, outcome, isLive, fun shared isShared => ?_⟩
  have value := reported shared isShared
  rw [SyntaxTree.reportedErrors_map_recoveryDiagnostic] at value
  exact ⟨value, by rw [value, List.map_eq_nil_iff, none]⟩

/-- A class without its closing brace, and before it a character that fits no rule. -/
def brokenClass : SyntaxTree :=
  .ofText "? class A \x7b".toList <|
    .mk ⟨"compilation_unit", true, false, false, true, 0, 11, none⟩
      [.mk ⟨"ERROR", true, false, true, true, 0, 1, none⟩
        [.mk ⟨"identifier", true, true, false, true, 1, 1, none⟩ []],
        .mk ⟨"class_declaration", true, false, false, true, 2, 11, none⟩
          [.mk ⟨"class", false, false, false, false, 2, 7, none⟩ [],
            .mk ⟨"identifier", true, false, false, false, 8, 9, some "name"⟩ [],
            .mk ⟨"declaration_list", true, false, false, true, 10, 11, some "body"⟩
              [.mk ⟨"\x7b", false, false, false, false, 10, 11, none⟩ [],
                .mk ⟨"\x7d", false, true, false, true, 11, 11, none⟩ []]]]

/-- A new document with the model of the class. -/
def brokenSession : Session :=
  ⟨.ofTree "a.cs" ⟨0, brokenClass⟩, [⟨.recovery brokenClass, [], 0⟩]⟩

/-- The name that is missing within the error has no diagnostic of its own. -/
theorem recovery_diagnostics_are_outermost_broken :
    brokenClass.root.HasTruthfulFlags ∧
      (∃ diagnostics, brokenClass.recoveryDiagnostics .live = .ok diagnostics ∧
        (diagnostics.map fun diagnostic => (diagnostic.id, diagnostic.region.startByte)) =
          [("syntax-error", 0), ("missing-token", 11)]) ∧
      ∃ call ∈ brokenSession.history [.setModel 0, .errors .live], ∃ shared outcomes,
        call.outcome = .errors (.ok shared) outcomes ∧
          (shared.value.map ReportedError.message) =
            ["Syntax error", "'\x7d' expected"] := by
  have truthful : brokenClass.root.HasTruthfulFlags := by decide +kernel
  obtain ⟨diagnostics, _, _, reports⟩ := recovery_diagnostics_are_outermost brokenClass truthful
  have isCall : (brokenSession.history [.setModel 0, .errors .live])[1] ∈
      brokenSession.history [.setModel 0, .errors .live] :=
    List.getElem_mem _
  obtain ⟨result, outcomes, outcome, isLive, reported⟩ :=
    reports "a.cs" ⟨0, brokenClass⟩ brokenSession.models [.setModel 0, .errors .live] _ isCall .live
      0 rfl rfl rfl
  obtain ⟨shared, rfl⟩ := isLive rfl
  refine ⟨truthful, ⟨_, diagnostics, by decide +kernel⟩, _, isCall, shared, outcomes, outcome, ?_⟩
  rw [(reported shared rfl).1]
  decide +kernel

end SourceAnnotations
