import SourceAnnotations.Proofs.Document.Errors

/-!
# Calls by callers who have cancelled

A caller who has cancelled is refused when there is something to compute, and the refusal leaves the
document as it was, with two exceptions.  Neither of them comes to a place where the cancellation is
looked at:

* the tags of comments are made when the comments have been published before;
* a model that reports recovery rows answers for a tree that has none.

What they compute is handed out and published.
-/

namespace SourceAnnotations

/-- Nothing is walked through in a tree without errors, so nothing is refused. -/
theorem SyntaxTree.recoveryDiagnostics_cancelled (tree : SyntaxTree) :
    tree.recoveryDiagnostics .cancelled =
      if tree.hasErrors then .error .cancelled else .ok [] := by
  rw [recoveryDiagnostics]
  rfl

namespace Session

variable (depth : Nat) {session : Session}

theorem perform_list_cancelled {listing : Listing}
    (empty : (listing.place.slot session.document).held = none)
    (uncollected : listing = .commentTags → session.document.comments.held = none) :
    perform depth (.list listing .cancelled) session =
      (listing.outcome (.error .cancelled), session) := by
  obtain ⟨result, after, performed, call⟩ :=
    perform_list depth listing .cancelled session
  rw [performed]
  cases call with
  | hit holds =>
      rw [empty] at holds
      cases holds
  | refused => rfl
  | scanned _ live => cases live
  | derived _ collects derives made =>
      obtain ⟨_, holds⟩ := collects.comments_of_cancelled
      have notCommentTags : listing ≠ .commentTags := by
        intro same
        rw [uncollected same] at holds
        cases holds
      rw [Listing.derive_cancelled derives notCommentTags] at made
      cases made

theorem perform_commentTags_cancelled {comments : Shared (List Comment)}
    (empty : session.document.commentTags.held = none)
    (collected : session.document.comments.held = some comments) :
    let tags := commentTags comments.value session.document.config.tagWords
    perform depth (.list .commentTags .cancelled) session =
      (.commentTags (.ok ⟨session.document.nextInstance, tags⟩),
        { session with document := session.document.fill .commentTags tags }) := by
  intro tags
  obtain ⟨result, after, performed, call⟩ :=
    perform_list depth .commentTags .cancelled session
  rw [performed]
  cases call with
  | hit holds =>
      have published : session.document.commentTags.held = some _ := holds
      rw [empty] at published
      cases published
  | refused _ _ uncollected =>
      rw [uncollected rfl] at collected
      cases collected
  | scanned _ live => cases live
  | derived _ collects derives made =>
      obtain ⟨rfl, holds⟩ := collects.comments_of_cancelled
      rw [collected] at holds
      cases holds
      rw [Listing.derive_commentTags derives] at made
      cases made
      rfl

theorem perform_errors_cancelled {number calls : Nat} {tree : SyntaxTree}
    (attached : session.document.model = some number)
    (model : session.model number = ⟨.recovery tree, [], calls⟩)
    (empty : session.document.errors.current.held = none) :
    perform depth (.errors .cancelled) session =
      if tree.hasErrors then
        (.errors (.error .cancelled) [], session.counted number)
      else
        let published :=
          (session.counted number).publishErrors session.document.errors.generation []
        (.errors (.ok published.1) [], published.2) := by
  have answers :
      session.answer number .cancelled =
        if tree.hasErrors then .error .cancelled else .ok [] := by
    rw [answer, model]
    exact tree.recoveryDiagnostics_cancelled
  have idles : session.meanwhile number = [] := by
    rw [meanwhile, model, ite_self]
  obtain ⟨result, outcomes, after, performed, call⟩ :=
    perform_errors depth .cancelled session
  rw [performed]
  cases call with
  | detached none =>
      rw [attached] at none
      cases none
  | hit _ holds =>
      rw [empty] at holds
      cases holds
  | failed same _ ran failed =>
      rw [attached] at same
      cases same
      rw [idles, idle_runner] at ran
      cases ran
      rw [answers] at failed
      by_cases errors : tree.hasErrors
      · rw [if_pos errors] at failed ⊢
        cases failed
        rfl
      · rw [if_neg errors] at failed
        cases failed
  | answered same _ ran answered =>
      rw [attached] at same
      cases same
      rw [idles, idle_runner] at ran
      cases ran
      rw [answers] at answered
      by_cases errors : tree.hasErrors
      · rw [if_pos errors] at answered
        cases answered
      · rw [if_neg errors] at answered ⊢
        cases answered
        rfl

/-- A caller who has cancelled and asks for a list that has not been published is refused, and the
document stays as it is, exactly when the list is not that of the tags of comments or the comments
have not been published either.  So is one who asks for the recovery rows of a tree, exactly when
the tree has any.  Otherwise the list is handed out and published. -/
theorem cancelled_call_is_refused_iff (depth : Nat) (session : Session) :
    (∀ listing : Listing, (listing.place.slot session.document).held = none →
      let (outcome, after) := perform depth (.list listing .cancelled) session
      (outcome = listing.outcome (.error .cancelled) ∧ after.document = session.document ↔
        ¬ (listing = .commentTags ∧ session.document.comments.isPublished))) ∧
    (∀ comments : Shared (List Comment), session.document.commentTags.held = none →
      session.document.comments.held = some comments →
        let tags := commentTags comments.value session.document.config.tagWords
        let fresh : Shared (List Tag) := ⟨session.document.nextInstance, tags⟩
        let (outcome, after) := perform depth (.list .commentTags .cancelled) session
        outcome = .commentTags (.ok fresh) ∧ after.document.commentTags = ⟨some fresh⟩) ∧
    ∀ number tree calls, session.document.model = some number →
      session.model number = ⟨.recovery tree, [], calls⟩ →
        session.document.errors.current.held = none →
          let fresh : Shared (List ReportedError) := ⟨session.document.nextInstance, []⟩
          let (outcome, after) := perform depth (.errors .cancelled) session
          (outcome = .errors (.error .cancelled) [] ∧ after.document = session.document ↔
            tree.hasErrors) ∧
          (¬ tree.hasErrors →
            outcome = .errors (.ok fresh) [] ∧ after.document.errors.current = ⟨some fresh⟩) := by
  refine ⟨?_, ?_, ?_⟩
  · intro listing empty
    by_cases excepted : listing = .commentTags ∧ session.document.comments.isPublished
    · obtain ⟨rfl, published⟩ := excepted
      obtain ⟨comments, collected⟩ := Option.isSome_iff_exists.mp published
      have answered := perform_commentTags_cancelled depth empty collected
      rw [answered]
      apply iff_of_false
      · exact fun refused => Listing.outcome_ok_ne_error .commentTags _ _ refused.1
      · exact fun notExcepted => notExcepted ⟨rfl, published⟩
    · have uncollected : listing = .commentTags → session.document.comments.held = none := by
        intro isCommentTags
        apply Option.not_isSome_iff_eq_none.mp
        exact fun published => excepted ⟨isCommentTags, published⟩
      have refused := perform_list_cancelled depth empty uncollected
      rw [refused]
      exact iff_of_true ⟨rfl, rfl⟩ excepted
  · intro comments empty collected tags fresh
    have answered := perform_commentTags_cancelled depth empty collected
    rw [answered]
    exact ⟨rfl, rfl⟩
  · intro number tree calls attached model empty fresh
    have answered := perform_errors_cancelled depth attached model empty
    rw [answered]
    by_cases errors : tree.hasErrors
    · rw [if_pos errors]
      exact ⟨iff_of_true ⟨rfl, rfl⟩ errors, fun none => absurd errors none⟩
    · have current :
          ((session.counted number).document.errors.slot
            session.document.errors.generation).held = none := by
        rw [counted, SlotHistory.slot_generation, empty]
      rw [if_neg errors, publishErrors_of_empty [] current]
      refine ⟨iff_of_false (fun refused => ?_) errors, fun _ => ⟨rfl, ?_⟩⟩
      · cases refused.1
      · exact SlotHistory.current_store_generation _

/-- A text of one comment, which begins with a tag word, and its tree, which has no errors. -/
def todoText : SyntaxTree :=
  .ofText "// TODO: x".toList
    (.mk ⟨"compilation_unit", true, false, false, false, 0, 10, none⟩
      [.mk ⟨"comment", true, false, false, false, 0, 10, none⟩ []])

/-- The document of the text after its comments have been asked for and a model of its recovery rows
has been attached. -/
def todoSession : Session :=
  (run ⟨.ofTree "a.cs" ⟨0, todoText⟩, [⟨.recovery todoText, [], 0⟩]⟩
    [.list .comments .live, .setModel 0]).2

/-- Folds are refused to a caller who has cancelled; tags of comments and errors are not. -/
theorem cancelled_call_is_refused_iff_todo :
    (perform 1 (.list .foldings .cancelled) todoSession).1 = .foldings (.error .cancelled) ∧
      (perform 1 (.list .commentTags .cancelled) todoSession).1 =
        .commentTags (.ok ⟨1, [⟨"TODO", "x", ⟨⟨0, 0⟩, ⟨0, 10⟩, 0, 10⟩⟩]⟩) ∧
      (perform 1 (.errors .cancelled) todoSession).1 = .errors (.ok ⟨1, []⟩) [] := by
  let todo : Comment :=
    ⟨.singleLine, "//", "", " TODO: x", ⟨⟨0, 0⟩, ⟨0, 10⟩, 0, 10⟩, true⟩
  have collected : todoSession.document.comments.held = some ⟨0, [todo]⟩ := by decide +kernel
  have tagged :
      commentTags [todo] todoSession.document.config.tagWords =
        [⟨"TODO", "x", ⟨⟨0, 0⟩, ⟨0, 10⟩, 0, 10⟩⟩] := by
    decide +kernel
  obtain ⟨lists, tags, errors⟩ := cancelled_call_is_refused_iff 1 todoSession
  refine ⟨?_, ?_, ?_⟩
  · exact ((lists .foldings rfl).mpr (by decide)).1
  · rw [← tagged]
    exact (tags ⟨0, [todo]⟩ rfl collected).1
  · exact ((errors 0 todoText 0 rfl rfl rfl).2 (by decide)).1

end Session

end SourceAnnotations
