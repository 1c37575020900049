import SourceAnnotations.Proofs.Document.Depth

/-!
# Caching is invisible

Whatever has been asked of a document, and in whatever order, a list that it hands out is one that
the events so far determine.  The four lists of the tree are those of the tree and the configuration
set last.  The errors are those that the model attached last has reported since it was attached, and
there are none without a model.

The invariant has two parts.  The slots of the four lists hold what would be computed anew, and each
slot of errors, also one that has been replaced, holds what a model has answered that was attached
when the slot was the current one.
-/

namespace SourceAnnotations

/-! ## Events, one by one -/

section

variable (past : List Event) (event : Event) (first : Shared SyntaxTree)

theorem lastTree_concat :
    lastTree (past ++ [event]) first = event.tree?.getD (lastTree past first) := by
  cases sets : event.tree? <;> simp [lastTree, sets]

theorem lastConfig_concat :
    lastConfig (past ++ [event]) = event.config?.getD (lastConfig past) := by
  cases sets : event.config? <;> simp [lastConfig, sets]

theorem attachedModel_concat :
    attachedModel (past ++ [event]) = event.model?.getD (attachedModel past) := by
  cases sets : event.model? <;> simp [attachedModel, sets]

theorem sinceAttachment_concat :
    sinceAttachment (past ++ [event]) =
      if event.model?.isNone then sinceAttachment past ++ [event] else [] := by
  by_cases keeps : event.model?.isNone <;> simp [sinceAttachment, keeps]

theorem invalidations_append (earlier later : List Event) :
    invalidations (earlier ++ later) = invalidations earlier + invalidations later :=
  List.countP_append

end

/-! ## The four lists -/

namespace Document

variable {document after : Document} {listing : Listing}

/-- The four lists that are held are those that would be computed anew. -/
def IsCurrent (document : Document) : Prop :=
  ∀ (listing : Listing) (held : Shared (List listing.Item)),
    (listing.place.slot document).held = some held →
      listing.compute document.tree.value document.config .live = .ok held.value

theorem isCurrent_of_empty (empty : ∀ listing : Listing, (listing.place.slot document).held = none) :
    document.IsCurrent := by
  intro listing held holds
  rw [empty listing] at holds
  cases holds

theorem IsCurrent.of_slots (current : document.IsCurrent)
    (tree : after.tree = document.tree) (config : after.config = document.config)
    (slots : ∀ listing : Listing, listing.place.slot after = listing.place.slot document) :
    after.IsCurrent := by
  intro listing held holds
  rw [slots] at holds
  rw [tree, config]
  exact current listing held holds

theorem IsCurrent.fill (current : document.IsCurrent) {items : List listing.Item}
    (computed : listing.compute document.tree.value document.config .live = .ok items) :
    (document.fill listing items).IsCurrent := by
  intro other held holds
  rw [fill_tree, fill_config]
  by_cases same : other = listing
  · subst same
    rw [slot_fill_self] at holds
    cases holds
    exact computed
  · rw [slot_fill_of_ne items same] at holds
    exact current other held holds

/-- A call for a list keeps the lists current, and what it hands out is current. -/
theorem ListCall.isCurrent {cancellation : Cancellation}
    {result : Except DocumentError (Shared (List listing.Item))}
    (call : ListCall cancellation document listing result after)
    (current : document.IsCurrent) :
    after.IsCurrent ∧
      ∀ shared, result = .ok shared →
        listing.compute document.tree.value document.config .live = .ok shared.value := by
  induction call with
  | hit holds =>
      refine ⟨current, fun shared same => ?_⟩
      cases same
      exact current _ _ holds
  | refused =>
      exact ⟨current, nofun⟩
  | scanned _ _ _ computed =>
      refine ⟨current.fill computed, fun shared same => ?_⟩
      cases same
      exact computed
  | @derived listing items derive comments between _ collects derives made inductionHypothesis =>
      obtain ⟨betweenCurrent, collected⟩ := inductionHypothesis
      have computed :
          listing.compute document.tree.value document.config .live = .ok items := by
        have comments' :
            document.tree.value.comments document.config .live = .ok comments.value :=
          collected comments rfl
        rw [Listing.compute_of_derive _ _ derives, comments']
        exact Listing.derive_live derives made
      obtain ⟨sameTree, sameConfig, -, -⟩ := collects.keeps
      refine ⟨betweenCurrent.fill ?_, fun shared same => ?_⟩
      · rw [sameTree, sameConfig]
        exact computed
      · cases same
        exact computed

end Document

/-! ## The slots of errors -/

/-- The errors are those that a model has answered that was attached when the errors had been
invalidated `number` times. -/
def Sourced (past : List Event) (number : Nat) (errors : List ReportedError) : Prop :=
  ∃ earlier later model diagnostics,
    past = earlier ++ later ∧ invalidations earlier = number ∧
      attachedModel earlier = some model ∧ .answered model diagnostics ∈ later ∧
        errors = reportedErrors diagnostics

theorem Sourced.append {past : List Event} {number : Nat} {errors : List ReportedError}
    (sourced : Sourced past number errors) (more : List Event) :
    Sourced (past ++ more) number errors := by
  obtain ⟨earlier, later, model, diagnostics, rfl, count, attached, answered, same⟩ := sourced
  refine ⟨earlier, later ++ more, model, diagnostics, ?_, count, attached, ?_, same⟩
  · rw [List.append_assoc]
  · exact List.mem_append_left more answered

def SlotsSourced (past : List Event) (history : SlotHistory (List ReportedError)) : Prop :=
  ∀ number held, number ≤ history.generation → (history.slot number).held = some held →
    Sourced past number held.value

namespace SlotsSourced

variable {past : List Event} {history : SlotHistory (List ReportedError)}

theorem append (sourced : SlotsSourced past history) (more : List Event) :
    SlotsSourced (past ++ more) history :=
  fun number held known holds => (sourced number held known holds).append more

theorem renew (sourced : SlotsSourced past history) : SlotsSourced past history.renew := by
  intro number held known holds
  rw [SlotHistory.generation_renew] at known
  by_cases old : number ≤ history.generation
  · rw [SlotHistory.slot_renew_of_le history old] at holds
    exact sourced number held old holds
  · have new : number = history.renew.generation := by
      rw [SlotHistory.generation_renew]
      omega
    rw [new, SlotHistory.slot_generation] at holds
    cases holds

theorem store (sourced : SlotsSourced past history) {number : Nat}
    (known : number ≤ history.generation) (slot : Slot (List ReportedError))
    (slotSourced : ∀ held, slot.held = some held → Sourced past number held.value) :
    SlotsSourced past (history.store number slot) := by
  intro other held otherKnown holds
  rw [SlotHistory.generation_store] at otherKnown
  by_cases same : other = number
  · subst same
    rw [SlotHistory.slot_store_self history known] at holds
    exact slotSourced held holds
  · rw [SlotHistory.slot_store_of_ne history known otherKnown same] at holds
    exact sourced other held otherKnown holds

end SlotsSourced

/-! ## The invariant -/

/-- The events so far explain all that a session holds. -/
structure Explained (first : Shared SyntaxTree) (past : List Event) (session : Session) :
    Prop where
  tree : session.document.tree = lastTree past first
  config : session.document.config = lastConfig past
  model : session.document.model = attachedModel past
  generation : session.document.errors.generation = invalidations past
  lists : session.document.IsCurrent
  errors : SlotsSourced past session.document.errors

namespace Explained

open Session

variable {first : Shared SyntaxTree} {past : List Event} {session : Session}

theorem start (fileName : String) (first : Shared SyntaxTree) (models : List ModelState) :
    Explained first [] ⟨.ofTree fileName first, models⟩ where
  tree := rfl
  config := rfl
  model := rfl
  generation := rfl
  lists := Document.isCurrent_of_empty fun listing => by cases listing <;> rfl
  errors := by
    intro number held known holds
    have zero : number = 0 := Nat.le_zero.mp known
    subst zero
    cases holds

theorem of_document {after : Session} (explained : Explained first past session)
    (same : after.document = session.document) : Explained first past after where
  tree := by rw [same, explained.tree]
  config := by rw [same, explained.config]
  model := by rw [same, explained.model]
  generation := by rw [same, explained.generation]
  lists := by rw [same]; exact explained.lists
  errors := by rw [same]; exact explained.errors

theorem listed (explained : Explained first past session) {listing : Listing}
    {cancellation : Cancellation} {document : Document}
    {result : Except DocumentError (Shared (List listing.Item))}
    (call : session.document.ListCall cancellation listing result document) :
    Explained first past { session with document := document } := by
  obtain ⟨tree, config, model, errors⟩ := call.keeps
  exact
    { tree := tree.trans explained.tree
      config := config.trans explained.config
      model := model.trans explained.model
      generation := by rw [errors]; exact explained.generation
      lists := (call.isCurrent explained.lists).1
      errors := by rw [errors]; exact explained.errors }

theorem shared (explained : Explained first past session) (errors : List ReportedError) :
    Explained first past (session.shareErrors errors).2 where
  tree := explained.tree
  config := explained.config
  model := explained.model
  generation := explained.generation
  lists := explained.lists.of_slots rfl rfl fun listing => by cases listing <;> rfl
  errors := explained.errors

theorem treeSet (explained : Explained first past session) (tree : Shared SyntaxTree) :
    Explained first (past ++ [.treeSet tree])
      { session with document := session.document.setTree tree } where
  tree := by rw [lastTree_concat]; rfl
  config := by rw [lastConfig_concat]; exact explained.config
  model := by rw [attachedModel_concat]; rfl
  generation := by
    rw [invalidations_append, ← explained.generation]
    exact SlotHistory.generation_renew _
  lists :=
    Document.isCurrent_of_empty fun listing => by cases listing <;> rfl
  errors := explained.errors.renew.append _

theorem configured (explained : Explained first past session) (config : AnnotationConfig) :
    Explained first (past ++ [.configured config])
      { session with document := session.document.withConfig config } where
  tree := by rw [lastTree_concat]; exact explained.tree
  config := by rw [lastConfig_concat]; rfl
  model := by rw [attachedModel_concat]; exact explained.model
  generation := by
    rw [invalidations_append, ← explained.generation]
    exact SlotHistory.generation_renew _
  lists :=
    Document.isCurrent_of_empty fun listing => by cases listing <;> rfl
  errors := explained.errors.renew.append _

theorem modelSet (explained : Explained first past session) (model : Option Nat) {event : Event}
    (sets : event.model? = some model) (keepsTree : event.tree? = none)
    (keepsConfig : event.config? = none) (invalidates : event.invalidatesErrors) :
    Explained first (past ++ [event])
      { session with document := session.document.setModel model } where
  tree := by rw [lastTree_concat, keepsTree]; exact explained.tree
  config := by rw [lastConfig_concat, keepsConfig]; exact explained.config
  model := by rw [attachedModel_concat, sets]; rfl
  generation := by
    have one : invalidations [event] = 1 := by simp [invalidations, invalidates]
    rw [invalidations_append, ← explained.generation, one]
    exact SlotHistory.generation_renew _
  lists := explained.lists.of_slots rfl rfl fun listing => by cases listing <;> rfl
  errors := explained.errors.renew.append _

/-- An answer goes to the slot that was the current one before the model was asked. -/
theorem answered {meanwhile : List Event} {before between : Session} {number : Nat}
    {diagnostics : List Diagnostic} (explainedBefore : Explained first past before)
    (explained : Explained first (past ++ meanwhile) between)
    (attached : before.document.model = some number) :
    Explained first (past ++ meanwhile ++ [.answered number diagnostics])
      (between.publishErrors before.document.errors.generation (reportedErrors diagnostics)).2 := by
  have known : before.document.errors.generation ≤ between.document.errors.generation := by
    rw [explainedBefore.generation, explained.generation, invalidations_append]
    exact Nat.le_add_right _ _
  have fresh :
      Sourced (past ++ meanwhile ++ [.answered number diagnostics])
        before.document.errors.generation (reportedErrors diagnostics) := by
    refine ⟨past, meanwhile ++ [.answered number diagnostics], number, diagnostics,
      List.append_assoc _ _ _, explainedBefore.generation.symm, ?_, ?_, rfl⟩
    · rw [← explainedBefore.model, attached]
    · exact List.mem_append_right meanwhile (List.mem_singleton_self _)
  have slots := explained.errors.append [.answered number diagnostics]
  rw [publishErrors_eq]
  exact
    { tree := by rw [lastTree_concat]; exact explained.tree
      config := by rw [lastConfig_concat]; exact explained.config
      model := by rw [attachedModel_concat]; exact explained.model
      generation := by
        rw [invalidations_append, SlotHistory.generation_store]
        exact explained.generation
      lists := explained.lists.of_slots rfl rfl fun listing => by cases listing <;> rfl
      errors := by
        apply slots.store known
        intro held holds
        rw [Slot.held_publish] at holds
        cases old :
            (between.document.errors.slot before.document.errors.generation).held with
        | some earlier =>
            rw [old] at holds
            cases holds
            exact slots _ _ known old
        | none =>
            rw [old] at holds
            cases holds
            exact fresh }

theorem invariant (first : Shared SyntaxTree) : Invariant (Explained first) where
  counted _ explained := explained.of_document rfl
  changed explainedBefore explained change := by
    cases change with
    | nothing => rw [List.append_nil]; exact explained
    | listed call => rw [List.append_nil]; exact explained.listed call
    | shared _ => rw [List.append_nil]; exact explained.shared []
    | treeSet tree => exact explained.treeSet tree
    | configured config => exact explained.configured config
    | attached number => exact explained.modelSet (some number) rfl rfl rfl rfl
    | detached => exact explained.modelSet none rfl rfl rfl rfl
    | answered attached _ _ => exact explainedBefore.answered explained attached

end Explained

/-! ## Errors since the last attachment -/

theorem Event.model?_of_valid {event : Event} (valid : event.invalidatesErrors = false) :
    event.model? = none := by
  cases event with
  | answered => rfl
  | treeSet => cases valid
  | configured => cases valid
  | attached => cases valid
  | detached => cases valid

theorem valid_cons {event : Event} {rest : List Event}
    (valid : invalidations (event :: rest) = 0) :
    event.model? = none ∧ invalidations rest = 0 := by
  have none := List.countP_eq_zero.mp valid
  refine ⟨Event.model?_of_valid ?_, List.countP_eq_zero.mpr fun later member => ?_⟩
  · exact Bool.eq_false_iff.mpr (none event List.mem_cons_self)
  · exact none later (List.mem_cons_of_mem event member)

theorem attachedModel_append_of_valid {earlier later : List Event}
    (valid : invalidations later = 0) :
    attachedModel (earlier ++ later) = attachedModel earlier := by
  induction later generalizing earlier with
  | nil => rw [List.append_nil]
  | cons event rest inductionHypothesis =>
      obtain ⟨keeps, restValid⟩ := valid_cons valid
      rw [List.append_cons, inductionHypothesis restValid, attachedModel_concat, keeps]
      rfl

theorem sinceAttachment_append_of_valid {earlier later : List Event}
    (valid : invalidations later = 0) :
    sinceAttachment (earlier ++ later) = sinceAttachment earlier ++ later := by
  induction later generalizing earlier with
  | nil => rw [List.append_nil, List.append_nil]
  | cons event rest inductionHypothesis =>
      obtain ⟨keeps, restValid⟩ := valid_cons valid
      have kept : event.model?.isNone := by rw [keeps]; rfl
      rw [List.append_cons, inductionHypothesis restValid, sinceAttachment_concat, if_pos kept,
        ← List.append_cons]

theorem Sourced.since_attachment {past during : List Event} {model : Nat}
    {errors : List ReportedError}
    (sourced : Sourced (past ++ during) (invalidations past) errors)
    (attached : attachedModel past = some model) :
    ∃ diagnostics, .answered model diagnostics ∈ sinceAttachment past ++ during ∧
      errors = reportedErrors diagnostics := by
  obtain ⟨earlier, later, source, diagnostics, split, count, sourceAttached, answered, same⟩ :=
    sourced
  refine ⟨diagnostics, ?_, same⟩
  rcases List.append_eq_append_iff.mp split with ⟨between, rfl, rfl⟩ | ⟨between, rfl, rfl⟩
  · -- The slot became the current one before the call, and nothing has invalidated it since.
    have valid : invalidations between = 0 := by
      rw [invalidations_append] at count
      omega
    rw [attachedModel_append_of_valid valid, attached] at sourceAttached
    cases sourceAttached
    exact List.mem_append_right _ (List.mem_append_right between answered)
  · have valid : invalidations between = 0 := by
      rw [invalidations_append] at count
      omega
    rw [attachedModel_append_of_valid valid, sourceAttached] at attached
    cases attached
    rw [sinceAttachment_append_of_valid valid, List.append_assoc]
    exact List.mem_append_right _ answered

/-! ## Calls -/

namespace Explained

open Session

variable {first : Shared SyntaxTree} {depth : Nat} {call : Call}

/-- A list that is handed out is that of the tree and the configuration set last, and a call for
one fails only when its caller has cancelled. -/
theorem list_answer (explained : Explained first call.past call.before)
    (performed : perform depth call.operation call.before = (call.outcome, call.after))
    {listing : Listing} {cancellation : Cancellation}
    (called : call.operation = .list listing cancellation) :
    (∃ shared, call.outcome = listing.outcome (.ok shared) ∧
      listing.compute (lastTree call.past first).value (lastConfig call.past) .live =
        .ok shared.value) ∨
      (cancellation = .cancelled ∧ call.outcome = listing.outcome (.error .cancelled)) := by
  obtain ⟨result, after, answers, listCall⟩ :=
    perform_list depth listing cancellation call.before
  rw [called, answers] at performed
  have outcome : listing.outcome result = call.outcome := congrArg Prod.fst performed
  rw [← outcome, ← explained.tree, ← explained.config]
  cases result with
  | ok shared =>
      exact .inl ⟨shared, rfl, (listCall.isCurrent explained.lists).2 shared rfl⟩
  | error failure =>
      cases listCall with
      | refused _ cancelled _ => exact .inr ⟨cancelled, rfl⟩

/-- Without a model there are no errors, and with one they are what it has answered. -/
theorem errors_answer (explained : Explained first call.past call.before)
    (explainedAfter : Explained first (call.past ++ call.during) call.after)
    (performed : perform depth call.operation call.before = (call.outcome, call.after))
    {cancellation : Cancellation} (called : call.operation = .errors cancellation) :
    ∃ result outcomes, call.outcome = .errors result outcomes ∧
      (attachedModel call.past = none → ∃ shared, result = .ok shared ∧ shared.value = []) ∧
      ∀ model shared, attachedModel call.past = some model → result = .ok shared →
        ∃ diagnostics, .answered model diagnostics ∈ sinceAttachment call.past ++ call.during ∧
          shared.value = reportedErrors diagnostics := by
  obtain ⟨result, outcomes, after, answers, errorsCall⟩ :=
    perform_errors depth cancellation call.before
  rw [called, answers] at performed
  have outcome : Outcome.errors result outcomes = call.outcome := congrArg Prod.fst performed
  have sameAfter : after = call.after := congrArg Prod.snd performed
  rw [← sameAfter] at explainedAfter
  refine ⟨result, outcomes, outcome.symm, ?_, ?_⟩
  · intro unattached
    rw [← explained.model] at unattached
    exact ⟨_, errorsCall.result_of_detached unattached, rfl⟩
  · rintro model shared attached rfl
    have known : call.before.document.errors.generation ≤ after.document.errors.generation := by
      rw [explained.generation, explainedAfter.generation, invalidations_append]
      exact Nat.le_add_right _ _
    have holds := errorsCall.holds (explained.model.trans attached) known
    have sourced := explainedAfter.errors _ shared known holds
    rw [explained.generation] at sourced
    exact sourced.since_attachment attached

end Explained

/-- A new document, whatever is done with it and whatever its models do with it while they are
asked, hands out what the events before a call determine.  A list of the tree is that of the tree
and the configuration set last, and it is refused only to a caller who has cancelled.  There are no
errors without a model.  With one they are what it has reported since it was attached, itself.  The
calls are those of the run, however deep its models may nest their operations. -/
theorem caching_is_invisible (fileName : String) (first : Shared SyntaxTree)
    (models : List ModelState) (operations : List Operation) :
    let session : Session := ⟨.ofTree fileName first, models⟩
    let history := session.history operations
    (∀ depth, models.length ≤ depth →
      history.map Call.outcome =
        Outcome.inOrderAll (Session.performAll (Session.perform depth) operations session).1) ∧
      Call.Chronological [] history ∧
      ∀ call ∈ history,
        (∀ listing cancellation, call.operation = .list listing cancellation →
          (∃ shared, call.outcome = listing.outcome (.ok shared) ∧
            listing.compute (lastTree call.past first).value (lastConfig call.past) .live =
              .ok shared.value) ∨
          (cancellation = .cancelled ∧ call.outcome = listing.outcome (.error .cancelled))) ∧
        (∀ cancellation, call.operation = .errors cancellation →
          ∃ result outcomes, call.outcome = .errors result outcomes ∧
            (attachedModel call.past = none →
              ∃ shared, result = .ok shared ∧ shared.value = []) ∧
            ∀ model shared, attachedModel call.past = some model → result = .ok shared →
              ∃ diagnostics,
                .answered model diagnostics ∈ sinceAttachment call.past ++ call.during ∧
                  shared.value = reportedErrors diagnostics) ∧
        ∀ model diagnostics, .answered model diagnostics ∈ call.own →
          ∃ count cancellation, (session.model model).model count cancellation = .ok diagnostics := by
  intro session history
  have unfolds := session.history_unfolds operations
  obtain ⟨explained, _⟩ :=
    unfolds.preserves (Explained.invariant first) (.start fileName first models)
  refine ⟨?_, unfolds.chronological, ?_⟩
  · intro depth enough
    rw [Session.run_eq_of_le enough]
    exact unfolds.map_outcome
  · intro call member
    obtain ⟨before, after⟩ := explained call member
    obtain ⟨⟨depth, performed⟩, _⟩ := unfolds.performed call member
    refine ⟨?_, ?_, ?_⟩
    · intro listing cancellation called
      exact before.list_answer performed called
    · intro cancellation called
      exact before.errors_answer after performed called
    · intro model diagnostics answered
      exact Session.answered_by_model unfolds member answered

/-- A new document with a model that puts another one in its own place while it is asked. -/
def replacedSession : Session :=
  ⟨.ofTree "a.cs" ⟨0, .ofText "class A { }".toList default⟩,
    [⟨.fixed false (.ok [syntaxErrorDiagnostic default]), [.setModel 1], 0⟩, .silent]⟩

/-- Its errors are asked for twice, the tags of its comments in between. -/
def replacedHistory : List Call :=
  replacedSession.history [.setModel 0, .errors .live, .list .commentTags .live, .errors .live]

/-- The errors asked for first are those of the model that was attached then, and not of the one
that was attached when they were handed out. -/
theorem caching_is_invisible_model_replaced :
    replacedHistory.length = 5 ∧
      replacedHistory.map Call.outcome =
        Outcome.inOrderAll
          (Session.performAll (Session.perform 9)
            [.setModel 0, .errors .live, .list .commentTags .live, .errors .live]
            replacedSession).1 ∧
    (∃ call ∈ replacedHistory, attachedModel call.past = some 0 ∧
      attachedModel (call.past ++ call.during) = some 1 ∧
        ∃ errors outcomes, call.outcome = .errors (.ok errors) outcomes ∧
          ∃ diagnostics, .answered 0 diagnostics ∈ sinceAttachment call.past ++ call.during ∧
            errors.value = reportedErrors diagnostics) ∧
      ∃ call ∈ replacedHistory, ∃ tags, call.outcome = .commentTags (.ok tags) ∧
        Listing.commentTags.compute (.ofText "class A { }".toList default) .default .live =
          .ok tags.value := by
  have length : replacedHistory.length = 5 := rfl
  obtain ⟨runs, _, answers⟩ :=
    caching_is_invisible "a.cs" ⟨0, .ofText "class A { }".toList default⟩
      replacedSession.models [.setModel 0, .errors .live, .list .commentTags .live, .errors .live]
  have asked : replacedHistory[2] ∈ replacedHistory := List.getElem_mem _
  have listed : replacedHistory[3] ∈ replacedHistory := List.getElem_mem _
  obtain ⟨_, errors, _⟩ := answers replacedHistory[2] asked
  obtain ⟨lists, _, _⟩ := answers replacedHistory[3] listed
  refine ⟨length, runs 9 (by decide), ⟨replacedHistory[2], asked, rfl, rfl, ?_⟩,
    ⟨replacedHistory[3], listed, ?_⟩⟩
  · have reports :
        replacedHistory[2].outcome =
          .errors (.ok ⟨0, [⟨.error, "syntax-error", "Syntax error", default⟩]⟩) [.done] :=
      rfl
    obtain ⟨result, outcomes, outcome, _, reported⟩ := errors .live rfl
    rw [reports] at outcome
    cases outcome
    exact ⟨_, _, reports, reported 0 _ rfl rfl⟩
  · rcases lists .commentTags .live rfl with ⟨tags, outcome, computed⟩ | ⟨cancelled, _⟩
    · exact ⟨tags, outcome, computed⟩
    · cases cancelled

end SourceAnnotations
