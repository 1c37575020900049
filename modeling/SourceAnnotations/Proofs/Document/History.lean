import SourceAnnotations.Proofs.Document.Errors

/-!
# Histories of calls

A history of operations is unfolded into the calls it is made of, in the order in which they are
completed; the calls that a model makes while it is asked are completed before the call that asked
it.  What the calls do to a document besides filling its slots is told by events.  Every call knows
the events before it, so that its answer can be compared with what they alone determine.

An invariant relates the events so far to the session.  It is shown for each way in which a session
changes, and holds then before and after every call of a history, however deep the call is made.
-/

namespace SourceAnnotations

/-! ## Events -/

inductive Event
  | treeSet (tree : Shared SyntaxTree)
  | configured (config : AnnotationConfig)
  | attached (model : Nat)
  | detached
  /-- A model has been asked and has not failed. -/
  | answered (model : Nat) (diagnostics : List Diagnostic)

namespace Event

def tree? : Event → Option (Shared SyntaxTree)
  | treeSet tree => some tree
  | _ => none

def config? : Event → Option AnnotationConfig
  | configured config => some config
  | _ => none

/-- The model that is attached from an event on, or that none is. -/
def model? : Event → Option (Option Nat)
  | attached model => some (some model)
  | detached => some none
  | treeSet _ => some none
  | _ => none

/-- Whether errors published before an event are out of date. -/
def invalidatesErrors : Event → Bool
  | answered _ _ => false
  | _ => true

end Event

section

variable (past : List Event)

def lastTree (first : Shared SyntaxTree) : Shared SyntaxTree :=
  (past.reverse.findSome? Event.tree?).getD first

def lastConfig : AnnotationConfig :=
  (past.reverse.findSome? Event.config?).getD .default

/-- The model attached last, unless it has been detached or a tree has been set since. -/
def attachedModel : Option Nat :=
  (past.reverse.findSome? Event.model?).join

/-- The events after the last one that attached or detached a model. -/
def sinceAttachment : List Event :=
  (past.reverse.takeWhile fun event => event.model?.isNone).reverse

def invalidations : Nat :=
  past.countP Event.invalidatesErrors

end

/-! ## Calls -/

namespace Session

/-- The events that an operation adds itself when it is called in a session. -/
def eventsOf (session : Session) : Operation → List Event
  | .errors cancellation =>
      match session.asked? with
      | none => []
      | some number =>
          match session.answer number cancellation with
          | .ok diagnostics => [.answered number diagnostics]
          | .error _ => []
  | .setTree tree => [.treeSet tree]
  | .setModel number => [.attached number]
  | .clearModel => [.detached]
  | .withConfig config => [.configured config]
  | .loadConfig json =>
      match AnnotationConfig.ofJson json with
      | .ok config => [.configured config]
      | .error _ => []
  | _ => []

/-- The operations that are run within an operation, and the session in which they begin. -/
def within (session : Session) : Operation → List Operation × Session
  | .errors _ =>
      match session.asked? with
      | none => ([], session)
      | some number => (session.meanwhile number, session.counted number)
  | _ => ([], session)

end Session

/-- A call that has been completed, `past` being the events before it. -/
structure Call where
  operation : Operation
  past : List Event
  before : Session
  /-- The events of the calls within the call. -/
  meanwhile : List Event
  /-- The events of the call itself. -/
  own : List Event
  outcome : Outcome
  after : Session

namespace Call

/-- The events from the beginning of the call to its end. -/
def during (call : Call) : List Event :=
  call.meanwhile ++ call.own

def events (calls : List Call) : List Event :=
  calls.flatMap Call.own

theorem events_nil : events [] = [] :=
  rfl

theorem events_append (earlier later : List Call) :
    events (earlier ++ later) = events earlier ++ events later :=
  List.flatMap_append

theorem events_singleton (call : Call) : events [call] = call.own :=
  List.flatMap_singleton _ _

/-- The calls follow on the events of `past`: each knows the events there are just before its own. -/
def Chronological : List Event → List Call → Prop
  | _, [] => True
  | past, call :: rest =>
      past = call.past ++ call.meanwhile ∧ Chronological (past ++ call.own) rest

theorem chronological_append {past : List Event} {earlier later : List Call} :
    Chronological past (earlier ++ later) ↔
      Chronological past earlier ∧ Chronological (past ++ events earlier) later := by
  induction earlier generalizing past with
  | nil => simp [Chronological, events_nil]
  | cons call rest inductionHypothesis =>
      simp only [List.cons_append, Chronological, inductionHypothesis, and_assoc]
      rw [← List.singleton_append, events_append, events_singleton, List.append_assoc]

end Call

namespace Session

/-- An operation as it is called, the calls within it being `inner`. -/
def completed (depth : Nat) (past : List Event) (session : Session) (operation : Operation)
    (inner : List Call) : Call where
  operation := operation
  past := past
  before := session
  meanwhile := Call.events inner
  own := session.eventsOf operation
  outcome := (perform depth operation session).1
  after := (perform depth operation session).2

/-- The calls of operations in order, when `unfold` gives those of one operation. -/
def unfoldAll (perform : Operation → Session → Outcome × Session)
    (unfold : List Event → Session → Operation → List Call) :
    List Event → Session → List Operation → List Call
  | _, _, [] => []
  | past, session, operation :: rest =>
      let calls := unfold past session operation
      calls ++
        unfoldAll perform unfold (past ++ Call.events calls) (perform operation session).2 rest

/-- The calls of an operation within which models run operations to a given depth at most. -/
def unfold : Nat → List Event → Session → Operation → List Call
  | 0, past, session, operation => [session.completed 0 past operation []]
  | depth + 1, past, session, operation =>
      let (operations, begun) := session.within operation
      let inner := unfoldAll (perform depth) (unfold depth) past begun operations
      inner ++ [session.completed (depth + 1) past operation inner]

/-- The calls of a history of operations, in the order in which they are completed. -/
def history (session : Session) (operations : List Operation) : List Call :=
  unfoldAll (perform session.models.length) (unfold session.models.length) [] session operations

end Session

mutual

/-- The outcomes within an outcome and the outcome itself, in the order in which they were given. -/
def Outcome.inOrder : Outcome → List Outcome
  | .errors result during => Outcome.inOrderAll during ++ [.errors result during]
  | outcome => [outcome]

def Outcome.inOrderAll : List Outcome → List Outcome
  | [] => []
  | head :: tail => head.inOrder ++ Outcome.inOrderAll tail

end

/-- The outcomes within an outcome. -/
def Outcome.within : Outcome → List Outcome
  | .errors _ during => Outcome.inOrderAll during
  | _ => []

theorem Outcome.inOrder_eq (outcome : Outcome) : outcome.inOrder = outcome.within ++ [outcome] := by
  cases outcome <;> simp [Outcome.inOrder, Outcome.within]

theorem Listing.within_outcome (listing : Listing)
    (result : Except DocumentError (Shared (List listing.Item))) :
    (listing.outcome result).within = [] := by
  cases listing <;> rfl

namespace Session

theorem ErrorsCall.outcomes_eq {run : Runner} (idle : run.Idle) {cancellation : Cancellation}
    {session after : Session} {outcomes : List Outcome}
    {result : Except DocumentError (Shared (List ReportedError))}
    (call : ErrorsCall run cancellation session result outcomes after) :
    outcomes =
      (run (session.within (.errors cancellation)).1
        (session.within (.errors cancellation)).2).1 := by
  cases call with
  | detached none =>
      simp only [within, asked?_of_detached none]
      rw [idle]
  | hit _ holds =>
      simp only [within, asked?_of_held holds]
      rw [idle]
  | failed attached empty ran =>
      simp only [within, asked?_of_empty empty, attached, ran]
  | answered attached empty ran =>
      simp only [within, asked?_of_empty empty, attached, ran]

theorem within_perform (depth : Nat) (session : Session) (operation : Operation) :
    (perform depth operation session).1.within =
      Outcome.inOrderAll
        (runner depth (session.within operation).1 (session.within operation).2).1 := by
  have alone {outcome : Outcome} (nothing : session.within operation = ([], session))
      (single : outcome.within = []) :
      outcome.within =
        Outcome.inOrderAll
          (runner depth (session.within operation).1 (session.within operation).2).1 := by
    rw [nothing, idle_runner, single, Outcome.inOrderAll]
  cases operation with
  | list listing cancellation =>
      obtain ⟨result, after, performed, _⟩ := perform_list depth listing cancellation session
      rw [performed]
      exact alone rfl (listing.within_outcome result)
  | errors cancellation =>
      obtain ⟨result, outcomes, after, performed, call⟩ :=
        perform_errors depth cancellation session
      rw [performed, Outcome.within, call.outcomes_eq (idle_runner depth)]
  | loadConfig json =>
      rw [perform_eq, performWith]
      cases AnnotationConfig.ofJson json with
      | ok config => exact alone rfl rfl
      | error failure => exact alone rfl rfl
  | setTree tree => rw [perform_eq]; exact alone rfl rfl
  | setModel number => rw [perform_eq]; exact alone rfl rfl
  | clearModel => rw [perform_eq]; exact alone rfl rfl
  | withConfig config => rw [perform_eq]; exact alone rfl rfl
  | countCalls number => rw [perform_eq]; exact alone rfl rfl
  | inspect => rw [perform_eq]; exact alone rfl rfl

/-- What an operation called in `before` does itself, from where the operations within it have left
the session. -/
inductive Change (before between : Session) : List Event → Session → Prop
  | nothing : Change before between [] between
  | listed {listing : Listing} {cancellation : Cancellation}
      {result : Except DocumentError (Shared (List listing.Item))} {document : Document} :
      between.document.ListCall cancellation listing result document →
        Change before between [] { between with document := document }
  | shared :
      between.document.model = none → Change before between [] (between.shareErrors []).2
  | treeSet (tree : Shared SyntaxTree) :
      Change before between [.treeSet tree]
        { between with document := between.document.setTree tree }
  | configured (config : AnnotationConfig) :
      Change before between [.configured config]
        { between with document := between.document.withConfig config }
  | attached (number : Nat) :
      Change before between [.attached number]
        { between with document := between.document.setModel (some number) }
  | detached :
      Change before between [.detached]
        { between with document := between.document.setModel none }
  | answered {number : Nat} {cancellation : Cancellation} {diagnostics : List Diagnostic} :
      before.document.model = some number →
        before.document.errors.current.held = none →
        before.answer number cancellation = .ok diagnostics →
          Change before between [.answered number diagnostics]
            (between.publishErrors before.document.errors.generation
              (reportedErrors diagnostics)).2

theorem ErrorsCall.change {run : Runner} (idle : run.Idle) {cancellation : Cancellation}
    {session after : Session} {outcomes : List Outcome}
    {result : Except DocumentError (Shared (List ReportedError))}
    (call : ErrorsCall run cancellation session result outcomes after) :
    Change session
      (run (session.within (.errors cancellation)).1
        (session.within (.errors cancellation)).2).2
      (session.eventsOf (.errors cancellation)) after := by
  cases call with
  | detached none =>
      simp only [within, eventsOf, asked?_of_detached none]
      rw [idle]
      exact .shared none
  | hit _ holds =>
      simp only [within, eventsOf, asked?_of_held holds]
      rw [idle]
      exact .nothing
  | failed attached empty ran failed =>
      simp only [within, eventsOf, asked?_of_empty empty, attached, ran, failed]
      exact .nothing
  | answered attached empty ran answered =>
      simp only [within, eventsOf, asked?_of_empty empty, attached, ran, answered]
      exact .answered attached empty answered

theorem change_perform (depth : Nat) (session : Session) (operation : Operation) :
    Change session
      (runner depth (session.within operation).1 (session.within operation).2).2
      (session.eventsOf operation) (perform depth operation session).2 := by
  have alone (nothing : session.within operation = ([], session))
      (change :
        Change session session (session.eventsOf operation) (perform depth operation session).2) :
      Change session
        (runner depth (session.within operation).1 (session.within operation).2).2
        (session.eventsOf operation) (perform depth operation session).2 := by
    rw [nothing, idle_runner]
    exact change
  cases operation with
  | list listing cancellation =>
      obtain ⟨result, after, performed, call⟩ := perform_list depth listing cancellation session
      apply alone rfl
      rw [performed]
      exact .listed call
  | errors cancellation =>
      obtain ⟨result, outcomes, after, performed, call⟩ :=
        perform_errors depth cancellation session
      rw [performed]
      exact call.change (idle_runner depth)
  | loadConfig json =>
      apply alone rfl
      rw [perform_eq, performWith, eventsOf]
      cases AnnotationConfig.ofJson json with
      | ok config => exact .configured config
      | error failure => exact .nothing
  | setTree tree =>
      apply alone rfl
      rw [perform_eq]
      exact .treeSet tree
  | setModel number =>
      apply alone rfl
      rw [perform_eq]
      exact .attached number
  | clearModel =>
      apply alone rfl
      rw [perform_eq]
      exact .detached
  | withConfig config =>
      apply alone rfl
      rw [perform_eq]
      exact .configured config
  | countCalls number =>
      apply alone rfl
      rw [perform_eq]
      exact .nothing
  | inspect =>
      apply alone rfl
      rw [perform_eq]
      exact .nothing

/-! ## Unfolding -/

/-- The calls are those that lead from one session to another after the events of `past`, and the
outcomes are theirs. -/
inductive Unfolds : List Event → Session → List Outcome → List Call → Session → Prop
  | nil {past : List Event} {session : Session} : Unfolds past session [] [] session
  | append {past : List Event} {session middle after : Session}
      {outcomes laterOutcomes : List Outcome} {calls laterCalls : List Call} :
      Unfolds past session outcomes calls middle →
        Unfolds (past ++ Call.events calls) middle laterOutcomes laterCalls after →
          Unfolds past session (outcomes ++ laterOutcomes) (calls ++ laterCalls) after
  | call {depth : Nat} {past : List Event} {session : Session} {operation : Operation}
      {inner : List Call} :
      Unfolds past (session.within operation).2 (perform depth operation session).1.within inner
          (runner depth (session.within operation).1 (session.within operation).2).2 →
        Unfolds past session (perform depth operation session).1.inOrder
          (inner ++ [session.completed depth past operation inner])
          (perform depth operation session).2

theorem unfoldAll_unfolds {perform : Operation → Session → Outcome × Session}
    {unfold : List Event → Session → Operation → List Call}
    (each : ∀ past session operation,
      Unfolds past session (perform operation session).1.inOrder (unfold past session operation)
        (perform operation session).2)
    (past : List Event) (session : Session) (operations : List Operation) :
    Unfolds past session (Outcome.inOrderAll (performAll perform operations session).1)
      (unfoldAll perform unfold past session operations)
      (performAll perform operations session).2 := by
  induction operations generalizing past session with
  | nil => exact .nil
  | cons operation rest inductionHypothesis =>
      exact .append (each past session operation) (inductionHypothesis _ _)

theorem unfold_unfolds (depth : Nat) (past : List Event) (session : Session)
    (operation : Operation) :
    Unfolds past session (perform depth operation session).1.inOrder
      (unfold depth past session operation) (perform depth operation session).2 := by
  induction depth generalizing past session operation with
  | zero =>
      have nothing :
          Unfolds past (session.within operation).2 (perform 0 operation session).1.within []
            (runner 0 (session.within operation).1 (session.within operation).2).2 := by
        rw [within_perform]
        exact .nil
      exact .call nothing
  | succ depth inductionHypothesis =>
      refine .call ?_
      rw [within_perform]
      exact unfoldAll_unfolds inductionHypothesis _ _ _

theorem history_unfolds (session : Session) (operations : List Operation) :
    Unfolds [] session (Outcome.inOrderAll (session.run operations).1)
      (session.history operations) (session.run operations).2 :=
  unfoldAll_unfolds (unfold_unfolds session.models.length) [] session operations

/-- What holds of a session after events, whatever they are. -/
structure Invariant (P : List Event → Session → Prop) : Prop where
  counted : ∀ {past session} (number : Nat), P past session → P past (session.counted number)
  changed :
    ∀ {past meanwhile own before between after}, P past before → P (past ++ meanwhile) between →
      Change before between own after → P (past ++ meanwhile ++ own) after

theorem Invariant.within {P : List Event → Session → Prop} (invariant : Invariant P)
    {past : List Event} {session : Session} (holds : P past session) (operation : Operation) :
    P past (session.within operation).2 := by
  cases operation with
  | errors cancellation =>
      cases asks : session.asked? with
      | none => simpa only [Session.within, asks] using holds
      | some number => simpa only [Session.within, asks] using invariant.counted number holds
  | _ => exact holds

namespace Unfolds

variable {past : List Event} {session after : Session} {outcomes : List Outcome}
  {calls : List Call}

theorem map_outcome (unfolds : Unfolds past session outcomes calls after) :
    calls.map Call.outcome = outcomes := by
  induction unfolds with
  | nil => rfl
  | append _ _ first second => rw [List.map_append, first, second]
  | call _ inner =>
      rw [Outcome.inOrder_eq, List.map_append, inner, List.map_singleton, completed]

/-- The calls are performed as operations are, and add the events that operations add. -/
theorem performed (unfolds : Unfolds past session outcomes calls after) :
    ∀ call ∈ calls,
      (∃ depth, perform depth call.operation call.before = (call.outcome, call.after)) ∧
        call.own = call.before.eventsOf call.operation := by
  induction unfolds with
  | nil => exact fun _ member => absurd member List.not_mem_nil
  | append _ _ first second =>
      intro call member
      rcases List.mem_append.mp member with earlier | later
      · exact first call earlier
      · exact second call later
  | @call depth _ _ _ _ _ inner =>
      intro call member
      rcases List.mem_append.mp member with within | last
      · exact inner call within
      · rw [List.mem_singleton.mp last]
        exact ⟨⟨depth, rfl⟩, rfl⟩

/-- When a call is completed, the events so far are those before it and those of the calls within
it. -/
theorem chronological (unfolds : Unfolds past session outcomes calls after) :
    Call.Chronological past calls := by
  induction unfolds with
  | nil => exact trivial
  | append _ _ first second => exact Call.chronological_append.mpr ⟨first, second⟩
  | call _ inner => exact Call.chronological_append.mpr ⟨inner, rfl, trivial⟩

/-- An invariant that holds in the beginning holds before and after each call, and in the end. -/
theorem preserves {P : List Event → Session → Prop} (invariant : Invariant P)
    (unfolds : Unfolds past session outcomes calls after) (holds : P past session) :
    (∀ call ∈ calls, P call.past call.before ∧ P (call.past ++ call.during) call.after) ∧
      P (past ++ Call.events calls) after := by
  induction unfolds with
  | nil =>
      refine ⟨fun _ member => absurd member List.not_mem_nil, ?_⟩
      rw [Call.events_nil, List.append_nil]
      exact holds
  | append _ _ first second =>
      obtain ⟨earlier, middle⟩ := first holds
      obtain ⟨later, last⟩ := second middle
      refine ⟨?_, ?_⟩
      · intro call member
        rcases List.mem_append.mp member with inFirst | inSecond
        · exact earlier call inFirst
        · exact later call inSecond
      · rw [Call.events_append, ← List.append_assoc]
        exact last
  | @call depth past session operation inner _ nested =>
      have begun : P past (session.within operation).2 :=
        invariant.within holds operation
      obtain ⟨within, between⟩ := nested begun
      have ends := invariant.changed holds between (change_perform depth session operation)
      refine ⟨?_, ?_⟩
      · intro call member
        rcases List.mem_append.mp member with inside | last
        · exact within call inside
        · rw [List.mem_singleton.mp last, Call.during, ← List.append_assoc]
          exact ⟨holds, ends⟩
      · rw [Call.events_append, ← List.append_assoc, Call.events_singleton]
        exact ends

end Unfolds

/-! ## Models -/

theorem model_counted (session : Session) (number other : Nat) :
    ((session.counted number).model other).model = (session.model other).model := by
  by_cases same : number = other
  · subst same
    cases known : session.models[number]? <;>
      simp [model, counted, List.getElem?_modify_eq, known, ModelState.called]
  · simp [model, counted, List.getElem?_modify_ne, same]

theorem answer_of_mem_eventsOf {session : Session} {operation : Operation} {number : Nat}
    {diagnostics : List Diagnostic}
    (answered : .answered number diagnostics ∈ session.eventsOf operation) :
    ∃ cancellation, session.answer number cancellation = .ok diagnostics := by
  cases operation with
  | errors cancellation =>
      rw [eventsOf] at answered
      cases asks : session.asked? with
      | none =>
          rw [asks] at answered
          cases answered
      | some asked =>
          cases answers : session.answer asked cancellation with
          | error failure =>
              simp only [asks, answers] at answered
              cases answered
          | ok given =>
              simp only [asks, answers] at answered
              cases List.mem_singleton.mp answered
              exact ⟨cancellation, answers⟩
  | loadConfig json =>
      rw [eventsOf] at answered
      split at answered
      · cases List.mem_singleton.mp answered
      · cases answered
  | list => cases answered
  | setTree => cases List.mem_singleton.mp answered
  | setModel => cases List.mem_singleton.mp answered
  | clearModel => cases List.mem_singleton.mp answered
  | withConfig => cases List.mem_singleton.mp answered
  | countCalls => cases answered
  | inspect => cases answered

/-- The models stay what they are, whatever they are asked. -/
theorem models_invariant (start : Session) :
    Invariant fun _ session => ∀ number,
      (session.model number).model = (start.model number).model where
  counted number same other := (model_counted _ number other).trans (same other)
  changed _ same change := by
    cases change <;> exact same

theorem answered_by_model {start after : Session} {outcomes : List Outcome} {calls : List Call}
    (unfolds : Unfolds [] start outcomes calls after) {call : Call} (member : call ∈ calls)
    {number : Nat} {diagnostics : List Diagnostic}
    (answered : .answered number diagnostics ∈ call.own) :
    ∃ count cancellation,
      (start.model number).model count cancellation = .ok diagnostics := by
  obtain ⟨holds, _⟩ := unfolds.preserves (models_invariant start) fun _ => rfl
  rw [(unfolds.performed call member).2] at answered
  obtain ⟨cancellation, given⟩ := answer_of_mem_eventsOf answered
  rw [answer, (holds call member).1 number] at given
  exact ⟨(call.before.model number).calls, cancellation, given⟩

end Session

end SourceAnnotations
