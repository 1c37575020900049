import SourceAnnotations.Proofs.Document.Cancelled
import SourceAnnotations.Proofs.Document.Depth

/-!
# Calls that fail

A call for a list that fails leaves the session as it was.  A call for the errors fails when the
model fails that it asks.  It leaves what the operations of the model have left, if the model ran
any, and that the model has been asked once more.

Two sessions are alike when they have the same document and differ only in how often models have
been asked that do not take notice of it.  No operation tells sessions apart that are alike, other
than by asking for the counts.  So a call that fails can be left out of a history.
-/

namespace SourceAnnotations

/-! ## Models and outcomes -/

namespace ModelState

/-- A model that answers the same however often it has been asked, and that does not operate on the
document any more. -/
def IsSteady (state : ModelState) : Prop :=
  (∀ count other cancellation, state.model count cancellation = state.model other cancellation) ∧
    (state.calls = 0 → state.onFirstCall = [])

/-- The same model, which may have been asked more often if it is steady. -/
structure Alike (state other : ModelState) : Prop where
  model : state.model = other.model
  onFirstCall : state.onFirstCall = other.onFirstCall
  calls : state.calls = other.calls ∨ state.IsSteady ∧ other.IsSteady

variable {state other : ModelState}

theorem IsSteady.called (steady : state.IsSteady) : state.called.IsSteady :=
  ⟨steady.1, fun uncalled => absurd uncalled (Nat.succ_ne_zero _)⟩

namespace Alike

theorem refl (state : ModelState) : state.Alike state :=
  ⟨rfl, rfl, .inl rfl⟩

theorem called (alike : state.Alike other) : state.called.Alike other.called := by
  refine ⟨alike.model, alike.onFirstCall, ?_⟩
  rcases alike.calls with same | ⟨steady, otherSteady⟩
  · exact .inl (congrArg Nat.succ same)
  · exact .inr ⟨steady.called, otherSteady.called⟩

theorem answer_eq (alike : state.Alike other) (cancellation : Cancellation) :
    state.model state.calls cancellation = other.model other.calls cancellation := by
  rw [← alike.model]
  rcases alike.calls with same | ⟨steady, _⟩
  · rw [same]
  · exact steady.1 _ _ _

theorem operations_eq (alike : state.Alike other) :
    (if state.calls = 0 then state.onFirstCall else []) =
      if other.calls = 0 then other.onFirstCall else [] := by
  rcases alike.calls with same | ⟨steady, otherSteady⟩
  · rw [same, alike.onFirstCall]
  · rw [ite_eq_right_iff.mpr steady.2, ite_eq_right_iff.mpr otherSteady.2]

end Alike

end ModelState

mutual

/-- An outcome without the counts that have been asked for. -/
def Outcome.uncounted : Outcome → Outcome
  | .errors result during => .errors result (Outcome.uncountedAll during)
  | .calls _ => .calls 0
  | outcome => outcome

def Outcome.uncountedAll : List Outcome → List Outcome
  | [] => []
  | head :: tail => head.uncounted :: Outcome.uncountedAll tail

end

namespace Session

/-! ## One call -/

section

variable {session after : Session} {outcome : Outcome} {failure : DocumentError}
  {cancellation : Cancellation} {depth : Nat}

end

/-! ## Sessions that are alike -/

/-- The same document, with models that cannot be told apart. -/
structure Alike (session other : Session) : Prop where
  document : session.document = other.document
  models : ∀ number : Nat,
    Option.Rel ModelState.Alike session.models[number]? other.models[number]?

namespace Alike

variable {session other : Session}

theorem refl (session : Session) : session.Alike session where
  document := rfl
  models number := by
    cases session.models[number]? with
    | none => exact .none
    | some state => exact .some (.refl state)

theorem model (alike : session.Alike other) (number : Nat) :
    (session.model number).Alike (other.model number) := by
  have related := alike.models number
  rw [Session.model, Session.model, List.getD_eq_getElem?_getD, List.getD_eq_getElem?_getD]
  revert related
  cases session.models[number]? <;> cases other.models[number]? <;> rintro ⟨⟩
  · exact .refl _
  · assumption

theorem counted (alike : session.Alike other) (number : Nat) :
    (session.counted number).Alike (other.counted number) where
  document := alike.document
  models asked := by
    have related := alike.models asked
    rw [Session.counted, Session.counted, List.getElem?_modify, List.getElem?_modify]
    revert related
    cases session.models[asked]? <;> cases other.models[asked]? <;> rintro ⟨⟩
    · exact .none
    · rename_i alike
      by_cases same : number = asked
      · simpa [same] using Option.Rel.some alike.called
      · simpa [same] using Option.Rel.some alike

theorem answer_eq (alike : session.Alike other) (number : Nat) (cancellation : Cancellation) :
    session.answer number cancellation = other.answer number cancellation :=
  (alike.model number).answer_eq cancellation

theorem meanwhile_eq (alike : session.Alike other) (number : Nat) :
    session.meanwhile number = other.meanwhile number :=
  (alike.model number).operations_eq

theorem publishErrors (alike : session.Alike other) (number : Nat)
    (errors : List ReportedError) :
    (session.publishErrors number errors).1 = (other.publishErrors number errors).1 ∧
      (session.publishErrors number errors).2.Alike (other.publishErrors number errors).2 := by
  rw [publishErrors_eq, publishErrors_eq, alike.document]
  exact ⟨rfl, rfl, alike.models⟩

end Alike

/-! ## Operations on sessions that are alike -/

/-- A runner that does not tell sessions apart that are alike. -/
def Runner.Uniform (run : Runner) : Prop :=
  ∀ (operations : List Operation) {session other : Session}, session.Alike other →
    Outcome.uncountedAll (run operations session).1 =
        Outcome.uncountedAll (run operations other).1 ∧
      (run operations session).2.Alike (run operations other).2

section

variable {session other : Session}

theorem ErrorsCall.of_alike {run : Runner} (uniform : run.Uniform)
    (alike : session.Alike other) {cancellation : Cancellation} {outcomes : List Outcome}
    {result : Except DocumentError (Shared (List ReportedError))} {after : Session}
    (call : ErrorsCall run cancellation session result outcomes after) :
    ∃ otherOutcomes otherAfter,
      ErrorsCall run cancellation other result otherOutcomes otherAfter ∧
        Outcome.uncountedAll outcomes = Outcome.uncountedAll otherOutcomes ∧
          after.Alike otherAfter := by
  have document := alike.document
  cases call with
  | detached detached =>
      rw [document] at detached
      have shared : (session.shareErrors []).1 = (other.shareErrors []).1 := by
        rw [shareErrors, shareErrors, document]
      rw [shared]
      refine ⟨_, _, .detached detached, rfl, ?_⟩
      rw [shareErrors, shareErrors, document]
      exact ⟨rfl, alike.models⟩
  | hit attached holds =>
      rw [document] at attached holds
      exact ⟨_, _, .hit attached holds, rfl, alike⟩
  | @failed number _ _ _ attached empty ran answers =>
      rw [document] at attached empty
      rw [alike.answer_eq] at answers
      have runs := uniform (session.meanwhile number) (alike.counted number)
      rw [ran, alike.meanwhile_eq number] at runs
      exact ⟨_, _, .failed attached empty rfl answers, runs⟩
  | @answered number _ _ _ attached empty ran answers =>
      rw [document] at attached empty
      rw [alike.answer_eq] at answers
      have runs := uniform (session.meanwhile number) (alike.counted number)
      rw [ran, alike.meanwhile_eq number] at runs
      obtain ⟨published, ends⟩ :=
        runs.2.publishErrors session.document.errors.generation (reportedErrors _)
      rw [published, document]
      exact ⟨_, _, .answered attached empty rfl answers, runs.1, by rwa [← document]⟩

theorem Alike.perform {depth : Nat} (uniform : (runner depth).Uniform)
    (alike : session.Alike other) (operation : Operation) :
    (Session.perform depth operation session).1.uncounted =
        (Session.perform depth operation other).1.uncounted ∧
      (Session.perform depth operation session).2.Alike
        (Session.perform depth operation other).2 := by
  have document := alike.document
  cases operation with
  | errors cancellation =>
      obtain ⟨result, outcomes, after, performed, call⟩ :=
        perform_errors depth cancellation session
      obtain ⟨otherOutcomes, otherAfter, otherCall, same, ends⟩ := call.of_alike uniform alike
      rw [performed, otherCall.perform_eq, Outcome.uncounted, Outcome.uncounted, same]
      exact ⟨rfl, ends⟩
  | loadConfig json =>
      rw [perform_eq, performWith, performWith, document]
      cases AnnotationConfig.ofJson json with
      | ok config => exact ⟨rfl, rfl, alike.models⟩
      | error failure => exact ⟨rfl, alike⟩
  | countCalls number =>
      rw [perform_eq]
      exact ⟨rfl, alike⟩
  | inspect =>
      rw [perform_eq, performWith, performWith, summary, summary, document]
      exact ⟨rfl, alike⟩
  | _ =>
      rw [perform_eq, performWith, performWith, document]
      exact ⟨rfl, rfl, alike.models⟩

end

/-! ## Leaving a call out -/

end Session

end SourceAnnotations
