import SourceAnnotations.Proofs.Document.Listing

/-!
# The list of errors

A call for the errors asks the attached model when nothing has been published yet since the errors
were last invalidated.  The model may operate on the document before it answers.  Whatever it does,
its answer goes to the slot that was the current one when the call began.
-/

namespace SourceAnnotations

namespace Session

/-! ## Asking a model -/

/-- The model that a call for the errors asks. -/
def asked? (session : Session) : Option Nat :=
  match session.document.errors.current.held with
  | some _ => none
  | none => session.document.model

/-- What a model answers when it is asked now. -/
def answer (session : Session) (number : Nat) (cancellation : Cancellation) :
    Except DocumentError (List Diagnostic) :=
  (session.model number).model (session.model number).calls cancellation

/-- The operations that a model runs when it is asked now. -/
def meanwhile (session : Session) (number : Nat) : List Operation :=
  if (session.model number).calls = 0 then (session.model number).onFirstCall else []

/-- The session in which a model begins to run its operations. -/
def counted (session : Session) (number : Nat) : Session :=
  { session with models := session.models.modify number ModelState.called }

/-- A list of errors published to the slot with a number. -/
def publishErrors (session : Session) (number : Nat) (errors : List ReportedError) :
    Shared (List ReportedError) × Session :=
  let (fresh, session) := (errorsPlace number).share errors session
  (errorsPlace number).publish fresh session

/-- A list of errors that is not kept. -/
def shareErrors (session : Session) (errors : List ReportedError) :
    Shared (List ReportedError) × Session :=
  (⟨session.document.nextInstance, errors⟩,
    { session with document := (session.document.share errors).2 })

theorem asked?_of_held {session : Session} {held : Shared (List ReportedError)}
    (holds : session.document.errors.current.held = some held) : session.asked? = none := by
  rw [asked?, holds]

theorem asked?_of_detached {session : Session} (detached : session.document.model = none) :
    session.asked? = none := by
  rw [asked?, detached]
  split <;> rfl

theorem asked?_of_empty {session : Session}
    (empty : session.document.errors.current.held = none) :
    session.asked? = session.document.model := by
  rw [asked?, empty]

theorem slot_errorsPlace_generation (session : Session) :
    (errorsPlace session.document.errors.generation).slot session =
      session.document.errors.current :=
  SlotHistory.slot_generation _

theorem publishErrors_eq (session : Session) (number : Nat) (errors : List ReportedError) :
    let published :=
      (session.document.errors.slot number).publish ⟨session.document.nextInstance, errors⟩
    session.publishErrors number errors =
      (published.1,
        { session with
          document :=
            { session.document with
              errors := session.document.errors.store number published.2
              nextInstance := session.document.nextInstance + 1 } }) :=
  rfl

theorem publishErrors_of_empty {session : Session} {number : Nat} (errors : List ReportedError)
    (empty : (session.document.errors.slot number).held = none) :
    session.publishErrors number errors =
      (⟨session.document.nextInstance, errors⟩,
        { session with
          document :=
            { session.document with
              errors :=
                session.document.errors.store number
                  ⟨some ⟨session.document.nextInstance, errors⟩⟩
              nextInstance := session.document.nextInstance + 1 } }) := by
  rw [publishErrors_eq, Slot.publish_of_empty empty]

/-! ## Calls -/

/-- A runner that does nothing when there is nothing to run. -/
def Runner.Idle (run : Runner) : Prop :=
  ∀ session, run [] session = ([], session)

/-- What a call for the errors can do: its answer, the outcomes of what the model ran, and the
session after it. -/
inductive ErrorsCall (run : Runner) (cancellation : Cancellation) (session : Session) :
    Except DocumentError (Shared (List ReportedError)) → List Outcome → Session → Prop
  | detached :
      session.document.model = none →
        ErrorsCall run cancellation session (.ok (session.shareErrors []).1) []
          (session.shareErrors []).2
  | hit {number : Nat} {held : Shared (List ReportedError)} :
      session.document.model = some number →
        session.document.errors.current.held = some held →
          ErrorsCall run cancellation session (.ok held) [] session
  | failed {number : Nat} {failure : DocumentError} {outcomes : List Outcome}
      {between : Session} :
      session.document.model = some number →
        session.document.errors.current.held = none →
        run (session.meanwhile number) (session.counted number) = (outcomes, between) →
        session.answer number cancellation = .error failure →
          ErrorsCall run cancellation session (.error failure) outcomes between
  | answered {number : Nat} {diagnostics : List Diagnostic} {outcomes : List Outcome}
      {between : Session} :
      session.document.model = some number →
        session.document.errors.current.held = none →
        run (session.meanwhile number) (session.counted number) = (outcomes, between) →
        session.answer number cancellation = .ok diagnostics →
          ErrorsCall run cancellation session
            (.ok (between.publishErrors session.document.errors.generation
              (reportedErrors diagnostics)).1)
            outcomes
            (between.publishErrors session.document.errors.generation
              (reportedErrors diagnostics)).2

theorem ErrorsCall.result_of_detached {run : Runner} {cancellation : Cancellation}
    {session after : Session} {outcomes : List Outcome}
    {result : Except DocumentError (Shared (List ReportedError))}
    (call : ErrorsCall run cancellation session result outcomes after)
    (none : session.document.model = none) : result = .ok (session.shareErrors []).1 := by
  cases call with
  | detached => rfl
  | hit attached =>
      rw [none] at attached
      cases attached
  | failed attached =>
      rw [none] at attached
      cases attached
  | answered attached =>
      rw [none] at attached
      cases attached

/-- With a model, the errors that are handed out are in the slot that was the current one. -/
theorem ErrorsCall.holds {run : Runner} {cancellation : Cancellation} {session after : Session}
    {outcomes : List Outcome} {number : Nat} {shared : Shared (List ReportedError)}
    (call : ErrorsCall run cancellation session (.ok shared) outcomes after)
    (attached : session.document.model = some number)
    (known : session.document.errors.generation ≤ after.document.errors.generation) :
    (after.document.errors.slot session.document.errors.generation).held = some shared := by
  cases call with
  | detached none =>
      rw [attached] at none
      cases none
  | hit _ holds =>
      rw [SlotHistory.slot_generation, holds]
  | @answered _ _ _ between =>
      rw [publishErrors_eq] at known ⊢
      rw [SlotHistory.generation_store] at known
      rw [SlotHistory.slot_store_self _ known]
      exact Slot.held_publish_eq_some_fst _ _

theorem consult_eq {run : Runner} (idle : run.Idle) (number : Nat) (cancellation : Cancellation)
    (session : Session) :
    consult run number cancellation session =
      ((session.answer number cancellation).map reportedErrors,
        run (session.meanwhile number) (session.counted number)) := by
  by_cases first : (session.model number).calls = 0
  · simp only [consult, answer, meanwhile, counted, if_pos first]
  · simp only [consult, answer, meanwhile, if_neg first]
    rw [idle]
    rfl

theorem ErrorsCall.listErrors_eq {run : Runner} (idle : run.Idle) {cancellation : Cancellation}
    {session after : Session} {outcomes : List Outcome}
    {result : Except DocumentError (Shared (List ReportedError))}
    (call : ErrorsCall run cancellation session result outcomes after) :
    session.listErrors run cancellation = (result, outcomes, after) := by
  have current := slot_errorsPlace_generation session
  cases call with
  | detached detached =>
      rw [listErrors, detached]
      rfl
  | hit attached holds =>
      rw [← current] at holds
      rw [listErrors, attached]
      simp only [Place.getOrTry_of_held holds]
      rfl
  | @failed number _ _ _ attached empty ran answers =>
      have consulted := consult_eq idle number cancellation session
      rw [ran, answers] at consulted
      rw [← current] at empty
      rw [listErrors, attached]
      simp only [Place.getOrTry_of_error empty consulted]
      rfl
  | @answered number _ _ _ attached empty ran answers =>
      have consulted := consult_eq idle number cancellation session
      rw [ran, answers] at consulted
      rw [← current] at empty
      rw [listErrors, attached]
      simp only [Place.getOrTry_of_ok empty consulted]
      rfl

/-- Every call for the errors ends in one of the four ways. -/
theorem listErrors_call {run : Runner} (idle : run.Idle) (cancellation : Cancellation)
    (session : Session) :
    ∃ result outcomes after,
      session.listErrors run cancellation = (result, outcomes, after) ∧
        ErrorsCall run cancellation session result outcomes after := by
  suffices ways : ∃ result outcomes after,
      ErrorsCall run cancellation session result outcomes after by
    obtain ⟨result, outcomes, after, call⟩ := ways
    exact ⟨result, outcomes, after, call.listErrors_eq idle, call⟩
  cases attached : session.document.model with
  | none => exact ⟨_, _, _, .detached attached⟩
  | some number =>
      cases holds : session.document.errors.current.held with
      | some held => exact ⟨_, _, _, .hit attached holds⟩
      | none =>
          cases answers : session.answer number cancellation with
          | error failure => exact ⟨_, _, _, .failed attached holds rfl answers⟩
          | ok diagnostics => exact ⟨_, _, _, .answered attached holds rfl answers⟩

/-! ## Within an operation -/

def runner : Nat → Runner
  | 0 => fun _ session => ([], session)
  | depth + 1 => performAll (perform depth)

theorem idle_runner : (depth : Nat) → (runner depth).Idle
  | 0 => fun _ => rfl
  | _ + 1 => fun _ => rfl

theorem perform_eq : (depth : Nat) → perform depth = performWith (runner depth)
  | 0 => rfl
  | _ + 1 => rfl

theorem perform_list (depth : Nat) (listing : Listing) (cancellation : Cancellation)
    (session : Session) :
    ∃ result after,
      perform depth (.list listing cancellation) session =
          (listing.outcome result, { session with document := after }) ∧
        session.document.ListCall cancellation listing result after := by
  obtain ⟨result, after, answered, call⟩ :=
    session.document.listAnnotations_call listing cancellation
  refine ⟨result, after, ?_, call⟩
  rw [perform_eq, performWith]
  simp only [answered]

theorem ErrorsCall.perform_eq {depth : Nat} {cancellation : Cancellation}
    {session after : Session} {outcomes : List Outcome}
    {result : Except DocumentError (Shared (List ReportedError))}
    (call : ErrorsCall (runner depth) cancellation session result outcomes after) :
    perform depth (.errors cancellation) session = (.errors result outcomes, after) := by
  rw [Session.perform_eq, performWith, call.listErrors_eq (idle_runner depth)]

theorem perform_errors (depth : Nat) (cancellation : Cancellation) (session : Session) :
    ∃ result outcomes after,
      perform depth (.errors cancellation) session = (.errors result outcomes, after) ∧
        ErrorsCall (runner depth) cancellation session result outcomes after := by
  obtain ⟨result, outcomes, after, _, call⟩ :=
    listErrors_call (idle_runner depth) cancellation session
  exact ⟨result, outcomes, after, call.perform_eq, call⟩

end Session

end SourceAnnotations
