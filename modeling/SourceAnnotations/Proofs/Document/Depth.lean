import SourceAnnotations.Proofs.Document.History

/-!
# How deep operations are nested

A model runs operations on its first call only, and the call counts before they are run.  A level at
which operations are run within others thus takes one model away from those that have not been
called yet, and as many levels as there are models are enough for every history.
-/

namespace SourceAnnotations

/-- Whether the model may still run operations. -/
def ModelState.isUncalled (state : ModelState) : Bool :=
  state.calls = 0

namespace Session

/-- How many models have not been called yet. -/
def uncalled (session : Session) : Nat :=
  session.models.countP ModelState.isUncalled

theorem uncalled_le_length (session : Session) : session.uncalled ≤ session.models.length :=
  List.countP_le_length

/-! ## Counting a call -/

theorem countP_modify_called_le (models : List ModelState) (number : Nat) :
    (models.modify number ModelState.called).countP ModelState.isUncalled ≤
      models.countP ModelState.isUncalled := by
  induction models generalizing number with
  | nil => simp
  | cons state rest inductionHypothesis =>
      cases number with
      | zero => simp [List.countP_cons, ModelState.called, ModelState.isUncalled]
      | succ number =>
          rw [List.modify_succ_cons, List.countP_cons, List.countP_cons]
          exact Nat.add_le_add_right (inductionHypothesis number) _

theorem countP_modify_called_lt {models : List ModelState} {number : Nat} {state : ModelState}
    (known : models[number]? = some state) (uncalled : state.calls = 0) :
    (models.modify number ModelState.called).countP ModelState.isUncalled <
      models.countP ModelState.isUncalled := by
  induction models generalizing number with
  | nil => cases known
  | cons first rest inductionHypothesis =>
      cases number with
      | zero =>
          cases known
          simp [ModelState.called, ModelState.isUncalled, uncalled]
      | succ number =>
          rw [List.modify_succ_cons, List.countP_cons, List.countP_cons]
          exact Nat.add_lt_add_right (inductionHypothesis known) _

theorem uncalled_counted_le (session : Session) (number : Nat) :
    (session.counted number).uncalled ≤ session.uncalled :=
  countP_modify_called_le session.models number

/-- A model that runs operations while it is asked has not been called before. -/
theorem uncalled_counted_lt {session : Session} {number : Nat}
    (runs : session.meanwhile number ≠ []) :
    (session.counted number).uncalled < session.uncalled := by
  have first : (session.model number).calls = 0 := by
    by_cases first : (session.model number).calls = 0
    · exact first
    · exact absurd (if_neg first) runs
  cases known : session.models[number]? with
  | none =>
      have silent : session.model number = .silent := by
        rw [model, List.getD_eq_getElem?_getD, known]
        rfl
      have idles : session.meanwhile number = [] := by
        rw [meanwhile, silent]
        rfl
      exact absurd idles runs
  | some state =>
      have same : session.model number = state := by
        rw [model, List.getD_eq_getElem?_getD, known]
        rfl
      rw [same] at first
      exact countP_modify_called_lt known first

theorem uncalled_within_lt {session : Session} {operation : Operation}
    (runs : (session.within operation).1 ≠ []) :
    (session.within operation).2.uncalled < session.uncalled := by
  cases operation with
  | errors cancellation =>
      cases asks : session.asked? with
      | none =>
          simp only [within, asks] at runs
          exact absurd rfl runs
      | some number =>
          simp only [within, asks] at runs ⊢
          exact uncalled_counted_lt runs
  | _ => exact absurd rfl runs

/-- No operation makes a model one that has not been called. -/
theorem uncalled_invariant (bound : Nat) :
    Invariant fun _ session => session.uncalled ≤ bound where
  counted number holds := Nat.le_trans (uncalled_counted_le _ number) holds
  changed _ holds change := by
    cases change <;> exact holds

theorem uncalled_perform_le (depth : Nat) (operation : Operation) (session : Session) :
    (perform depth operation session).2.uncalled ≤ session.uncalled :=
  ((unfold_unfolds depth [] session operation).preserves (uncalled_invariant session.uncalled)
    (Nat.le_refl _)).2

/-! ## Enough levels -/

theorem listErrors_congr {run other : Runner} (idle : run.Idle) (otherIdle : other.Idle)
    {cancellation : Cancellation} {session : Session}
    (same :
      run (session.within (.errors cancellation)).1 (session.within (.errors cancellation)).2 =
        other (session.within (.errors cancellation)).1
          (session.within (.errors cancellation)).2) :
    session.listErrors run cancellation = session.listErrors other cancellation := by
  cases attached : session.document.model with
  | none => rw [listErrors, listErrors, attached]
  | some number =>
      cases holds : session.document.errors.current.held with
      | some held =>
          have hits :
              ((errorsPlace session.document.errors.generation).slot session).held =
                some held := by
            rw [slot_errorsPlace_generation, holds]
          simp only [listErrors, attached, Place.getOrTry_of_held hits]
      | none =>
          simp only [within, asked?_of_empty holds, attached] at same
          have consulted :
              consult run number cancellation session =
                consult other number cancellation session := by
            rw [consult_eq idle, consult_eq otherIdle, same]
          simp only [listErrors, attached, Place.getOrTry, slot_errorsPlace_generation,
            holds, consulted]

/-- Two runners that agree on what is run within an operation perform it alike. -/
theorem performWith_congr {run other : Runner} (idle : run.Idle) (otherIdle : other.Idle)
    {operation : Operation} {session : Session}
    (same :
      run (session.within operation).1 (session.within operation).2 =
        other (session.within operation).1 (session.within operation).2) :
    performWith run operation session = performWith other operation session := by
  cases operation with
  | errors cancellation =>
      rw [performWith, performWith, listErrors_congr idle otherIdle same]
  | _ => rfl

theorem performAll_congr {perform other : Operation → Session → Outcome × Session} {bound : Nat}
    (same : ∀ operation session, session.uncalled ≤ bound →
      perform operation session = other operation session)
    (decreases : ∀ operation session,
      (other operation session).2.uncalled ≤ session.uncalled)
    (operations : List Operation) {session : Session} (few : session.uncalled ≤ bound) :
    performAll perform operations session = performAll other operations session := by
  induction operations generalizing session with
  | nil => rfl
  | cons operation rest inductionHypothesis =>
      have later := Nat.le_trans (decreases operation session) few
      simp only [performAll]
      rw [same operation session few, inductionHypothesis later]

/-- One level more than there are models that have not been called changes nothing. -/
theorem perform_succ {depth : Nat} {session : Session} (enough : session.uncalled ≤ depth)
    (operation : Operation) :
    perform (depth + 1) operation session = perform depth operation session := by
  induction depth generalizing session operation with
  | zero =>
      rw [perform_eq, perform_eq]
      apply performWith_congr (idle_runner 1) (idle_runner 0)
      by_cases runs : (session.within operation).1 = []
      · rw [runs, idle_runner, idle_runner]
      · have fewer := uncalled_within_lt runs
        omega
  | succ depth inductionHypothesis =>
      rw [perform_eq, perform_eq]
      apply performWith_congr (idle_runner _) (idle_runner _)
      by_cases runs : (session.within operation).1 = []
      · rw [runs, idle_runner, idle_runner]
      · have fewer := uncalled_within_lt runs
        exact performAll_congr (fun operation session few => inductionHypothesis few operation)
          (uncalled_perform_le depth) _ (by omega)

theorem perform_of_le {depth deeper : Nat} {session : Session} (enough : session.uncalled ≤ depth)
    (deep : depth ≤ deeper) (operation : Operation) :
    perform deeper operation session = perform depth operation session := by
  induction deep with
  | refl => rfl
  | step deep inductionHypothesis =>
      rw [perform_succ (Nat.le_trans enough deep), inductionHypothesis]

/-- A run does not depend on the depth that it is given, as long as that is no less than the number
of the models. -/
theorem run_eq_of_le {session : Session} {depth : Nat} (enough : session.models.length ≤ depth)
    (operations : List Operation) :
    performAll (perform depth) operations session = session.run operations :=
  performAll_congr (fun operation _ few => perform_of_le few enough operation)
    (uncalled_perform_le _) operations session.uncalled_le_length

end Session

end SourceAnnotations
