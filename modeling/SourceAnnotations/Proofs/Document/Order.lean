import SourceAnnotations.Proofs.Document.Depth

/-!
# Calls that follow on each other

A history has the calls in the order in which they were completed, so a call that stands behind
another may have been going on when the other was made.  A call follows on another when it was made
after the other had been completed.

A property lasts when every change of a session keeps it, also a change by a call that was going on
already.  What lasts and holds after a call holds before and after each call that follows.
-/

namespace SourceAnnotations

/-- `later` was made when `earlier` had been completed, and `between` are the calls that were
completed from then on until it was made. -/
def Call.Follows (history : List Call) (earlier : Call) (between : List Call) (later : Call) :
    Prop :=
  ∃ front within rest,
    history = front ++ earlier :: (between ++ within ++ later :: rest) ∧
      within.map Call.outcome = later.outcome.within

namespace Call.Follows

variable {history between : List Call} {earlier later : Call}

end Call.Follows

namespace Session

variable {past : List Event} {session after : Session} {outcomes : List Outcome}
  {calls : List Call}

/-! ## The calls within a call -/

/-- A property that every change keeps, wherever the call that makes the change was made. -/
structure Lasting (I P : List Event → Session → Prop) : Prop where
  counted : ∀ {past session} (number : Nat), P past session → P past (session.counted number)
  changed :
    ∀ {past meanwhile own before between after}, I past before → I (past ++ meanwhile) between →
      P (past ++ meanwhile) between → Change before between own after →
        P (past ++ meanwhile ++ own) after

variable {I P : List Event → Session → Prop}

theorem Lasting.invariant (lasting : Lasting I P) (invariant : Invariant I) :
    Invariant fun past session => I past session ∧ P past session where
  counted number holds := ⟨invariant.counted number holds.1, lasting.counted number holds.2⟩
  changed before between change :=
    ⟨invariant.changed before.1 between.1 change,
      lasting.changed before.1 between.1 between.2 change⟩

end Session

end SourceAnnotations
