import SourceAnnotations.Proofs.Document.Cancelled
import SourceAnnotations.Proofs.Document.Lasting

/-!
# How long instances last

A list that has been handed out is handed out again, as the same instance, until it is out of date.
From then on the instance is not handed out any more.  The tags and the folds that are made from
comments are made from the very comments that are handed out when these are asked for.

All this is about calls that follow on each other, whatever has been called between them.  Models
may operate on the document while they are asked for its errors; the errors then belong to the time
at which they were asked for.
-/

namespace SourceAnnotations

/-! ## Identities -/

namespace Session

/-! ## One call -/

section

variable {depth : Nat} {call : Call}

theorem list_call
    (performed : perform depth call.operation call.before = (call.outcome, call.after))
    {listing : Listing} {cancellation : Cancellation}
    (called : call.operation = .list listing cancellation) :
    ∃ result document, call.outcome = listing.outcome result ∧
      call.after = { call.before with document := document } ∧
        call.before.document.ListCall cancellation listing result document := by
  obtain ⟨result, document, answers, listCall⟩ :=
    perform_list depth listing cancellation call.before
  rw [called, answers] at performed
  injection performed with outcome after
  exact ⟨result, document, outcome.symm, after.symm, listCall⟩

end

section

variable {first : Shared SyntaxTree} {past : List Event} {session after : Session}
  {outcomes : List Outcome} {history between : List Call} {earlier later : Call}

theorem Unfolds.explained (unfolds : Unfolds past session outcomes history after)
    (start : Explained first past session) {call : Call} (member : call ∈ history) :
    Explained first call.past call.before ∧
      Explained first (call.past ++ call.during) call.after :=
  (unfolds.preserves (Explained.invariant first) start).1 call member

theorem Unfolds.consistent (unfolds : Unfolds past session outcomes history after)
    (start : Explained first past session) (consistent : session.Consistent) {call : Call}
    (member : call ∈ history) : call.before.Consistent ∧ call.after.Consistent := by
  have invariant := (lasting_consistent first).invariant (Explained.invariant first)
  obtain ⟨before, after⟩ := (unfolds.preserves invariant ⟨start, consistent⟩).1 call member
  exact ⟨before.2, after.2⟩

theorem Unfolds.list_of_held (unfolds : Unfolds past session outcomes history after) {call : Call}
    (member : call ∈ history) {listing : Listing} {cancellation : Cancellation}
    {shared : Shared (List listing.Item)} (called : call.operation = .list listing cancellation)
    (holds : (listing.place.slot call.before.document).held = some shared) :
    call.outcome = listing.outcome (.ok shared) := by
  obtain ⟨⟨_, performed⟩, _⟩ := unfolds.performed call member
  obtain ⟨result, document, outcome, _, listCall⟩ := list_call performed called
  rw [outcome, listCall.eq_ok_of_held holds]

end

end Session

end SourceAnnotations
