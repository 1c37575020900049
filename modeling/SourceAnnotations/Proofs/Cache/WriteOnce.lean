import SourceAnnotations.Cache.Program
import SourceAnnotations.Proofs.Cache.Slot

/-!
# A slot is written once

A program of steps on a slot is followed by its trace: the steps in the order in which they are
completed, those that run within a computation before the step that asked for it.  Some of them
complete a publication, which carries an instance.  The first of these instances is the only one
that any step ever hands out, and nothing is handed out before it.

The trace is kept in step with the slot by one law for each step, which compares the slot after the
step with what was held just before its completion; for a computation that is what its own nested
steps have left.
-/

namespace SourceAnnotations

variable {α ε : Type}

/-! ## Traces -/

structure PerformedStep (α ε : Type) where
  step : SlotStep α ε
  before : SlotRun α
  result : SlotResult α ε
  after : SlotRun α

def SlotStep.performed (run : SlotRun α) (step : SlotStep α ε) : PerformedStep α ε :=
  ⟨step, run, (step.perform run).1, (step.perform run).2⟩

mutual

/-- The steps that are completed by the end of a step, in order. -/
def SlotStep.trace (run : SlotRun α) : SlotStep α ε → List (PerformedStep α ε)
  | .getOrTry during outcome =>
      match run.slot.held with
      | some _ => [(SlotStep.getOrTry during outcome).performed run]
      | none => traceAll run during ++ [(SlotStep.getOrTry during outcome).performed run]
  | step => [step.performed run]

def traceAll (run : SlotRun α) : List (SlotStep α ε) → List (PerformedStep α ε)
  | [] => []
  | step :: rest => SlotStep.trace run step ++ traceAll (step.perform run).2 rest

end

mutual

/-- The answers within an answer and the answer itself, in the order in which they were given. -/
def SlotResult.inOrder : SlotResult α ε → List (SlotResult α ε)
  | .got result during => SlotResult.inOrderAll during ++ [.got result during]
  | result => [result]

def SlotResult.inOrderAll : List (SlotResult α ε) → List (SlotResult α ε)
  | [] => []
  | head :: tail => head.inOrder ++ SlotResult.inOrderAll tail

end

/-! ## Publications -/

def SlotResult.instance? : SlotResult α ε → Option (Shared α)
  | .held instance? => instance?
  | .installed shared => some shared
  | .got result _ => result.toOption
  | _ => none

namespace PerformedStep

/-- The instance carried by the publication that is completed with a step, if the step publishes at
all: a new one, one handed out earlier, or the one made of what has been computed on a miss. -/
def carried (performed : PerformedStep α ε) : Option (Shared α) :=
  match performed.step with
  | .publish value => some ⟨performed.before.nextId, value⟩
  | .republish index => performed.before.handedOut[index]?
  | .getOrTry during (.ok value) =>
      match performed.before.slot.held with
      | some _ => none
      | none => some ⟨(performAll performed.before during).2.nextId, value⟩
  | _ => none

end PerformedStep

def firstPublished (trace : List (PerformedStep α ε)) : Option (Shared α) :=
  trace.findSome? PerformedStep.carried

theorem firstPublished_append (earlier later : List (PerformedStep α ε)) :
    firstPublished (earlier ++ later) = (firstPublished earlier).or (firstPublished later) :=
  List.findSome?_append

theorem firstPublished_singleton (performed : PerformedStep α ε) :
    firstPublished [performed] = performed.carried := by
  rw [firstPublished, List.findSome?_singleton]

/-! ## What each step does -/

namespace SlotRun

@[simp]
theorem slot_handOut (run : SlotRun α) (held : Shared α) : (run.handOut held).slot = run.slot := by
  rw [handOut]
  split <;> rfl

theorem slot_install (run : SlotRun α) (fresh : Shared α) :
    (run.install (ε := ε) fresh).2.slot = (run.slot.publish fresh).2 :=
  slot_handOut _ _

/-- A publication is answered with what the slot holds then. -/
theorem instance?_install (run : SlotRun α) (fresh : Shared α) :
    (run.install (ε := ε) fresh).1.instance? = (run.slot.publish fresh).2.held :=
  (Slot.held_publish_eq_some_fst run.slot fresh).symm

end SlotRun

namespace PerformedStep

/-- What a completed step says of the slot, `held` being what the slot held just before the step
was completed. -/
structure Lawful (held : Option (Shared α)) (performed : PerformedStep α ε) : Prop where
  /-- Only an empty slot takes what the step publishes. -/
  after : performed.after.slot.held = held.or performed.carried
  /-- Whatever the step hands out is in the slot then. -/
  handsOut :
    ∀ shared, performed.result.instance? = some shared →
      performed.after.slot.held = some shared
  get : performed.step = .get → performed.result = .held held
  isPublished : performed.step = .isPublished → performed.result = .published held.isSome
  /-- Getting fails exactly with the failure of a computation that an empty slot made necessary,
  and leaves the slot to the steps within the computation. -/
  getOrTry :
    ∀ during outcome, performed.step = .getOrTry during outcome →
      ∃ result results, performed.result = .got result results ∧
        ∀ failure, result = .error failure ↔
          performed.before.slot.held = none ∧ outcome = .error failure
  failed :
    ∀ during outcome failure results, performed.step = .getOrTry during outcome →
      performed.result = .got (.error failure) results →
        performed.after.slot = (performAll performed.before during).2.slot

end PerformedStep

namespace SlotStep

open PerformedStep

section

attribute [local simp] performed perform carried

theorem lawful_get (run : SlotRun α) :
    ((SlotStep.get (ε := ε)).performed run).Lawful run.slot.held := by
  have after : (run.slot.held.elim run run.handOut).slot = run.slot := by
    cases run.slot.held <;> simp
  refine ⟨?_, ?_, fun _ => ?_, nofun, nofun, nofun⟩
  · simp [after]
  · intro shared handed
    simpa [SlotResult.instance?, after] using handed
  · simp

theorem lawful_isPublished (run : SlotRun α) :
    ((SlotStep.isPublished (ε := ε)).performed run).Lawful run.slot.held := by
  refine ⟨?_, ?_, nofun, fun _ => ?_, nofun, nofun⟩
  · simp
  · simp [SlotResult.instance?]
  · simp [Slot.isPublished]

theorem lawful_describe (run : SlotRun α) :
    ((SlotStep.describe (ε := ε)).performed run).Lawful run.slot.held := by
  refine ⟨?_, ?_, nofun, nofun, nofun, nofun⟩
  · simp
  · simp [SlotResult.instance?]

theorem lawful_publish (run : SlotRun α) (value : α) :
    ((SlotStep.publish (ε := ε) value).performed run).Lawful run.slot.held := by
  refine ⟨?_, ?_, nofun, nofun, nofun, nofun⟩
  · simp only [performed, perform, carried, SlotRun.slot_install, Slot.held_publish]
    rfl
  · intro shared handed
    simp only [performed, perform, SlotRun.instance?_install, SlotRun.slot_install] at handed ⊢
    exact handed

theorem lawful_republish (run : SlotRun α) (index : Nat) :
    ((SlotStep.republish (ε := ε) index).performed run).Lawful run.slot.held := by
  cases known : run.handedOut[index]? with
  | none =>
      refine ⟨?_, ?_, nofun, nofun, nofun, nofun⟩
      · simp [known]
      · simp [SlotResult.instance?, known]
  | some fresh =>
      refine ⟨?_, ?_, nofun, nofun, nofun, nofun⟩
      · simp only [performed, perform, carried, known, SlotRun.slot_install, Slot.held_publish]
      · intro shared handed
        simp only [performed, perform, known, SlotRun.instance?_install,
          SlotRun.slot_install] at handed ⊢
        exact handed

end

/-! ### Getting with a computation -/

theorem perform_getOrTry_of_held {run : SlotRun α} {held : Shared α}
    (during : List (SlotStep α ε)) (outcome : Except ε α) (holds : run.slot.held = some held) :
    (SlotStep.getOrTry during outcome).perform run = (.got (.ok held) [], run.handOut held) := by
  rw [perform, Place.getOrTry_of_held holds]
  rfl

theorem perform_getOrTry_of_error {run : SlotRun α} (during : List (SlotStep α ε)) (failure : ε)
    (empty : run.slot.held = none) :
    (SlotStep.getOrTry during (.error failure)).perform run =
      (.got (.error failure) (performAll run during).1, (performAll run during).2) := by
  rw [perform, Place.getOrTry_of_error empty rfl]
  rfl

theorem perform_getOrTry_of_ok {run : SlotRun α} (during : List (SlotStep α ε)) (value : α)
    (empty : run.slot.held = none) :
    let inner := (performAll run during).2
    let published := inner.slot.publish ⟨inner.nextId, value⟩
    ((SlotStep.getOrTry during (.ok value)).perform run).1 =
        .got (.ok published.1) (performAll run during).1 ∧
      ((SlotStep.getOrTry during (.ok value)).perform run).2.slot = published.2 := by
  rw [perform, Place.getOrTry_of_ok empty rfl]
  constructor
  · rfl
  · exact SlotRun.slot_handOut _ _

theorem lawful_getOrTry_of_held {run : SlotRun α} {held : Shared α}
    (during : List (SlotStep α ε)) (outcome : Except ε α) (holds : run.slot.held = some held) :
    ((SlotStep.getOrTry during outcome).performed run).Lawful run.slot.held := by
  have performed_eq := perform_getOrTry_of_held during outcome holds
  refine ⟨?_, ?_, nofun, nofun, ?_, ?_⟩
  · cases outcome <;> simp [performed, carried, performed_eq, holds]
  · intro shared handed
    simpa [performed, performed_eq, SlotResult.instance?, holds, Except.toOption] using handed
  · intro during' outcome' step
    refine ⟨.ok held, [], ?_, ?_⟩
    · simp [performed, performed_eq]
    · simp [performed, holds]
  · intro during' outcome' failure results step result
    simp [performed, performed_eq] at result

theorem lawful_getOrTry_of_empty {run : SlotRun α} (during : List (SlotStep α ε))
    (outcome : Except ε α) (empty : run.slot.held = none) :
    ((SlotStep.getOrTry during outcome).performed run).Lawful
      (performAll run during).2.slot.held := by
  cases outcome with
  | error failure =>
      have performed_eq := perform_getOrTry_of_error during failure empty
      refine ⟨?_, ?_, nofun, nofun, ?_, ?_⟩
      · simp [performed, carried, performed_eq]
      · intro shared handed
        simp [performed, performed_eq, SlotResult.instance?, Except.toOption] at handed
      · intro during' outcome' step
        cases step
        refine ⟨.error failure, (performAll run during).1, ?_, ?_⟩
        · simp [performed, performed_eq]
        · simp [performed, empty]
      · intro during' outcome' failure' results step result
        cases step
        simp [performed, performed_eq]
  | ok value =>
      obtain ⟨result_eq, slot_eq⟩ := perform_getOrTry_of_ok during value empty
      refine ⟨?_, ?_, nofun, nofun, ?_, ?_⟩
      · simp [performed, carried, empty, slot_eq, Slot.held_publish]
      · intro shared handed
        simp only [performed, result_eq, slot_eq, SlotResult.instance?, Except.toOption,
          Slot.held_publish_eq_some_fst] at handed ⊢
        exact handed
      · intro during' outcome' step
        cases step
        refine ⟨_, _, result_eq, ?_⟩
        simp
      · intro during' outcome' failure' results step result
        simp [performed, result_eq] at result

end SlotStep

/-! ## Whole traces -/

/-- Every step of the trace is lawful, `held` being what the slot holds before the first one is
completed. -/
def Follows (held : Option (Shared α)) : List (PerformedStep α ε) → Prop
  | [] => True
  | performed :: later => performed.Lawful held ∧ Follows (held.or performed.carried) later

theorem follows_append {held : Option (Shared α)} {earlier later : List (PerformedStep α ε)} :
    Follows held (earlier ++ later) ↔
      Follows held earlier ∧ Follows (held.or (firstPublished earlier)) later := by
  induction earlier generalizing held with
  | nil =>
      simp [Follows, firstPublished]
  | cons performed rest inductionHypothesis =>
      have first : firstPublished (performed :: rest) =
          performed.carried.or (firstPublished rest) := by
        rw [← firstPublished_singleton, ← firstPublished_append, List.singleton_append]
      rw [List.cons_append, Follows, Follows, inductionHypothesis, first, Option.or_assoc,
        and_assoc]

theorem Follows.lawful {held : Option (Shared α)} {earlier later : List (PerformedStep α ε)}
    {performed : PerformedStep α ε} (follows : Follows held (earlier ++ performed :: later)) :
    performed.Lawful (held.or (firstPublished earlier)) :=
  (follows_append.mp follows).2.1

/-- A trace follows the slot from what it held to what it holds in the end. -/
structure Tracks (start : Option (Shared α)) (trace : List (PerformedStep α ε))
    (stop : Option (Shared α)) : Prop where
  follows : Follows start trace
  stop : stop = start.or (firstPublished trace)

namespace Tracks

theorem append {start middle stop : Option (Shared α)}
    {earlier later : List (PerformedStep α ε)}
    (first : Tracks start earlier middle) (second : Tracks middle later stop) :
    Tracks start (earlier ++ later) stop := by
  obtain ⟨firstFollows, rfl⟩ := first
  obtain ⟨secondFollows, rfl⟩ := second
  refine ⟨follows_append.mpr ⟨firstFollows, secondFollows⟩, ?_⟩
  rw [firstPublished_append, Option.or_assoc]

theorem of_lawful {start : Option (Shared α)} {performed : PerformedStep α ε}
    (lawful : performed.Lawful start) :
    Tracks start [performed] performed.after.slot.held := by
  refine ⟨⟨lawful, trivial⟩, ?_⟩
  rw [firstPublished_singleton, lawful.after]

end Tracks

mutual

theorem SlotStep.trace_tracks (run : SlotRun α) :
    (step : SlotStep α ε) →
      Tracks run.slot.held (step.trace run) (step.perform run).2.slot.held
  | .get => Tracks.of_lawful (SlotStep.lawful_get run)
  | .isPublished => Tracks.of_lawful (SlotStep.lawful_isPublished run)
  | .describe => Tracks.of_lawful (SlotStep.lawful_describe run)
  | .publish value => Tracks.of_lawful (SlotStep.lawful_publish run value)
  | .republish index => Tracks.of_lawful (SlotStep.lawful_republish run index)
  | .getOrTry during outcome => by
      cases holds : run.slot.held with
      | some held =>
          have lawful := SlotStep.lawful_getOrTry_of_held during outcome holds
          rw [holds] at lawful
          simp only [SlotStep.trace, holds]
          exact Tracks.of_lawful lawful
      | none =>
          -- The computation tracks the slot up to its own completion.
          have nested := traceAll_tracks run during
          rw [holds] at nested
          simp only [SlotStep.trace, holds]
          exact nested.append
            (Tracks.of_lawful (SlotStep.lawful_getOrTry_of_empty during outcome holds))

theorem traceAll_tracks (run : SlotRun α) :
    (program : List (SlotStep α ε)) →
      Tracks run.slot.held (traceAll run program) (performAll run program).2.slot.held
  | [] => ⟨trivial, by simp [traceAll, performAll, firstPublished]⟩
  | step :: rest => by
      simp only [traceAll, performAll]
      exact (SlotStep.trace_tracks run step).append (traceAll_tracks (step.perform run).2 rest)

end

mutual

/-- The trace of a step has the answers that were given up to its end. -/
theorem SlotStep.trace_results (run : SlotRun α) :
    (step : SlotStep α ε) →
      (step.trace run).map PerformedStep.result = (step.perform run).1.inOrder
  | .get => by simp [SlotStep.trace, SlotStep.performed, SlotStep.perform, SlotResult.inOrder]
  | .isPublished => by
      simp [SlotStep.trace, SlotStep.performed, SlotStep.perform, SlotResult.inOrder]
  | .describe => by
      simp [SlotStep.trace, SlotStep.performed, SlotStep.perform, SlotResult.inOrder]
  | .publish value => by
      simp [SlotStep.trace, SlotStep.performed, SlotStep.perform, SlotResult.inOrder,
        SlotRun.install]
  | .republish index => by
      cases known : run.handedOut[index]? <;>
        simp [SlotStep.trace, SlotStep.performed, SlotStep.perform, SlotResult.inOrder, known,
          SlotRun.install]
  | .getOrTry during outcome => by
      cases holds : run.slot.held with
      | some held =>
          simp [SlotStep.trace, SlotStep.performed, holds,
            SlotStep.perform_getOrTry_of_held during outcome holds, SlotResult.inOrder,
            SlotResult.inOrderAll]
      | none =>
          have nested := traceAll_results run during
          cases outcome with
          | error failure =>
              simp [SlotStep.trace, SlotStep.performed, holds, nested,
                SlotStep.perform_getOrTry_of_error during failure holds, SlotResult.inOrder]
          | ok value =>
              obtain ⟨result, _⟩ := SlotStep.perform_getOrTry_of_ok during value holds
              simp [SlotStep.trace, SlotStep.performed, holds, nested, result,
                SlotResult.inOrder]

theorem traceAll_results (run : SlotRun α) :
    (program : List (SlotStep α ε)) →
      (traceAll run program).map PerformedStep.result =
        SlotResult.inOrderAll (performAll run program).1
  | [] => rfl
  | step :: rest => by
      simp only [traceAll, performAll, SlotResult.inOrderAll, List.map_append,
        SlotStep.trace_results run step, traceAll_results (step.perform run).2 rest]

end

/-! ## Agreement -/

/-- A program on a new slot hands out one instance only, that of the first publication to be
completed.  Up to there every step finds the slot empty and from there on that instance in it.
Getting with a computation fails exactly when the slot was empty and its own computation fails, and
then leaves the slot as the steps within the computation left it. -/
theorem slot_is_written_once (program : List (SlotStep α ε)) :
    let trace := traceAll .start program
    trace.map PerformedStep.result = SlotResult.inOrderAll (performAll .start program).1 ∧
      ∀ earlier performed later, trace = earlier ++ performed :: later →
        (∀ shared, performed.result.instance? = some shared →
          firstPublished trace = some shared) ∧
        (performed.step = .get → performed.result = .held (firstPublished earlier)) ∧
        (performed.step = .isPublished →
          performed.result = .published (firstPublished earlier).isSome) ∧
        ∀ during outcome, performed.step = .getOrTry during outcome →
          ∃ result results, performed.result = .got result results ∧
            ∀ failure,
              (result = .error failure ↔
                performed.before.slot.held = none ∧ outcome = .error failure) ∧
              (result = .error failure →
                performed.after.slot = (performAll performed.before during).2.slot) := by
  intro trace
  refine ⟨traceAll_results .start program, ?_⟩
  intro earlier performed later shape
  have follows : Follows none trace := (traceAll_tracks .start program).follows
  rw [shape] at follows
  have lawful := follows.lawful
  rw [Option.none_or] at lawful
  refine ⟨?_, lawful.get, lawful.isPublished, ?_⟩
  · intro shared handed
    -- What is held after the step was carried by a publication up to the step.
    have holds := lawful.handsOut shared handed
    rw [lawful.after] at holds
    have split : firstPublished trace =
        ((firstPublished earlier).or performed.carried).or (firstPublished later) := by
      rw [shape, ← List.singleton_append, firstPublished_append, firstPublished_append,
        firstPublished_singleton, Option.or_assoc]
    rw [split, holds, Option.some_or]
  · intro during outcome step
    obtain ⟨result, results, answer, failure_iff⟩ := lawful.getOrTry during outcome step
    refine ⟨result, results, answer, fun failure => ⟨failure_iff failure, ?_⟩⟩
    intro failed
    rw [failed] at answer
    exact lawful.failed during outcome failure results step answer

/-- A computation that succeeds after a step within it has published hands out what that step
published. -/
theorem slot_is_written_once_computation_too_late :
    let late : SlotStep Nat Unit := .getOrTry [.publish 7] (.ok 8)
    let trace := traceAll .start [late, .get]
    trace = (traceAll .start [.publish 7]) ++
        late.performed .start :: [SlotStep.get.performed (late.perform .start).2] ∧
      (late.performed .start).result.instance? = some ⟨0, 7⟩ ∧
        firstPublished trace = some ⟨0, 7⟩ := by
  intro late trace
  have shape :
      trace = (traceAll .start [.publish 7]) ++
        late.performed .start :: [SlotStep.get.performed (late.perform .start).2] :=
    rfl
  have handed : (late.performed .start).result.instance? = some ⟨0, 7⟩ := rfl
  obtain ⟨_, laws⟩ := slot_is_written_once [late, .get]
  exact ⟨shape, handed, (laws _ _ _ shape).1 ⟨0, 7⟩ handed⟩

end SourceAnnotations
