import SourceAnnotations.Proofs.Document.Order
import SourceAnnotations.Proofs.Document.Transparency

/-!
# What lasts in a document

Every slot keeps what it holds until it is out of date: the slots of the four lists until another
tree or configuration is set, the slot of errors until another model is attached or none as well.
Every instance that is published has a new identity, so what no slot holds any more is not held
again.  Slots of errors that have been replaced are still written to by calls that were going on at
the time, so the last statement is about all slots of errors from a number on.
-/

namespace SourceAnnotations

/-! ## Events that put the lists out of date -/

namespace Document

variable {document : Document}

/-- Publishing a list made from comments leaves the comments. -/
theorem comments_fill {listing : Listing} {derive : listing.Derivation}
    (derives : listing.derive? = some derive) (items : List listing.Item) :
    (document.fill listing items).comments = document.comments := by
  cases listing with
  | comments => cases derives
  | tags => rfl
  | commentTags => rfl
  | foldings => rfl

namespace ListCall

variable {document after : Document} {listing other : Listing} {cancellation : Cancellation}
  {result : Except DocumentError (Shared (List listing.Item))}

/-- What is handed out is in the slot. -/
theorem holds {shared : Shared (List listing.Item)}
    (call : ListCall cancellation document listing (.ok shared) after) :
    (listing.place.slot after).held = some shared := by
  cases call with
  | hit holds => exact holds
  | scanned => rw [slot_fill_self]
  | derived => rw [slot_fill_self]

/-- What a slot holds stays there. -/
theorem keeps_held (call : ListCall cancellation document listing result after)
    {held : Shared (List other.Item)} (holds : (other.place.slot document).held = some held) :
    (other.place.slot after).held = some held := by
  have different {target : Listing} (empty : (target.place.slot document).held = none) :
      other ≠ target := by
    rintro rfl
    rw [holds] at empty
    cases empty
  induction call with
  | hit => exact holds
  | refused => exact holds
  | scanned empty =>
      rw [slot_fill_of_ne _ (different empty)]
      exact holds
  | derived empty _ _ _ inductionHypothesis =>
      rw [slot_fill_of_ne _ (different empty)]
      exact inductionHypothesis

/-- What is in the slot is handed out. -/
theorem eq_ok_of_held (call : ListCall cancellation document listing result after)
    {shared : Shared (List listing.Item)}
    (inSlot : (listing.place.slot document).held = some shared) : result = .ok shared := by
  have full (empty : (listing.place.slot document).held = none) : False := by
    rw [inSlot] at empty
    cases empty
  cases call with
  | hit holds =>
      rw [inSlot] at holds
      cases holds
      rfl
  | refused empty => exact (full empty).elim
  | scanned empty => exact (full empty).elim
  | derived empty => exact (full empty).elim

theorem nextInstance_le (call : ListCall cancellation document listing result after) :
    document.nextInstance ≤ after.nextInstance := by
  induction call with
  | hit => exact Nat.le_refl _
  | refused => exact Nat.le_refl _
  | scanned => exact Nat.le_succ _
  | derived _ _ _ _ inductionHypothesis => exact Nat.le_succ_of_le inductionHypothesis

/-- What a slot holds after a call was there before or is new. -/
theorem old_or_new (call : ListCall cancellation document listing result after)
    {held : Shared (List other.Item)} (holds : (other.place.slot after).held = some held) :
    (other.place.slot document).held = some held ∨
      document.nextInstance ≤ held.id ∧ held.id < after.nextInstance := by
  have filled {target : Listing} {items : List target.Item} {between : Document}
      (grown : document.nextInstance ≤ between.nextInstance)
      (holds : (other.place.slot (between.fill target items)).held = some held) :
      (other.place.slot between).held = some held ∨
        document.nextInstance ≤ held.id ∧ held.id < (between.fill target items).nextInstance := by
    by_cases same : other = target
    · subst same
      rw [slot_fill_self] at holds
      cases holds
      exact .inr ⟨grown, Nat.lt_succ_self _⟩
    · rw [slot_fill_of_ne items same] at holds
      exact .inl holds
  induction call with
  | hit => exact .inl holds
  | refused => exact .inl holds
  | scanned => exact filled (Nat.le_refl _) holds
  | derived _ collects _ _ inductionHypothesis =>
      rcases filled collects.nextInstance_le holds with before | new
      · rcases inductionHypothesis before with old | ⟨notOld, small⟩
        · exact .inl old
        · exact .inr ⟨notOld, Nat.lt_succ_of_lt small⟩
      · exact .inr new

theorem keeps_comments (call : ListCall cancellation document listing result after)
    {comments : Shared (List Comment)} (holds : document.comments.held = some comments) :
    after.comments.held = some comments := by
  have inSlot : (Listing.comments.place.slot document).held = some comments := holds
  exact call.keeps_held inSlot

/-- Lists made from comments are held together with comments. -/
theorem collected (call : ListCall cancellation document listing result after)
    (before : ∀ (other : Listing) (held : Shared (List other.Item)), other.derive?.isSome →
      (other.place.slot document).held = some held →
        ∃ comments, document.comments.held = some comments)
    {held : Shared (List other.Item)} (derives : other.derive?.isSome)
    (holds : (other.place.slot after).held = some held) :
    ∃ comments, after.comments.held = some comments := by
  have keeps {comments : Shared (List Comment)} (inSlot : document.comments.held = some comments) :
      after.comments.held = some comments :=
    call.keeps_comments inSlot
  cases call with
  | hit => exact before other held derives holds
  | refused => exact before other held derives holds
  | scanned _ _ direct =>
      have different : other ≠ listing := by
        rintro rfl
        rw [direct] at derives
        cases derives
      rw [slot_fill_of_ne _ different] at holds
      exact (before other held derives holds).imp fun _ => keeps
  | @derived _ items _ comments _ _ collects derived =>
      refine ⟨comments, ?_⟩
      rw [comments_fill derived]
      exact collects.holds

end ListCall

end Document

/-! ## What a session holds -/

namespace Session

/-- An instance is in a slot of the four lists, or in a slot of errors with the given number or a
higher one. -/
def Holds (session : Session) (number identity : Nat) : Prop :=
  (∃ (listing : Listing) (held : Shared (List listing.Item)),
    (listing.place.slot session.document).held = some held ∧ held.id = identity) ∨
  ∃ slot held, number ≤ slot ∧ slot ≤ session.document.errors.generation ∧
    (session.document.errors.slot slot).held = some held ∧ held.id = identity

section

variable {session after : Session} {number identity : Nat}

theorem Holds.of_same (holds : after.Holds number identity)
    (lists : ∀ listing : Listing,
      listing.place.slot after.document = listing.place.slot session.document)
    (errors : after.document.errors = session.document.errors) :
    session.Holds number identity := by
  rcases holds with ⟨listing, held, inSlot, same⟩ | inErrors
  · rw [lists] at inSlot
    exact .inl ⟨listing, held, inSlot, same⟩
  · rw [errors] at inErrors
    exact .inr inErrors

/-- When the errors are invalidated, no other slot of errors than the ones before holds
anything. -/
theorem Holds.of_renew (holds : after.Holds number identity)
    (lists : ∀ (listing : Listing) (held : Shared (List listing.Item)),
      (listing.place.slot after.document).held = some held →
        (listing.place.slot session.document).held = some held)
    (errors : after.document.errors = session.document.errors.renew) :
    session.Holds number identity := by
  rcases holds with ⟨listing, held, inSlot, same⟩ | ⟨slot, held, above, known, inSlot, same⟩
  · exact .inl ⟨listing, held, lists listing held inSlot, same⟩
  · rw [errors, SlotHistory.generation_renew] at known
    rw [errors] at inSlot
    by_cases old : slot ≤ session.document.errors.generation
    · rw [SlotHistory.slot_renew_of_le _ old] at inSlot
      exact .inr ⟨slot, held, above, old, inSlot, same⟩
    · have new : slot = session.document.errors.renew.generation := by
        rw [SlotHistory.generation_renew]
        omega
      rw [new, SlotHistory.slot_generation] at inSlot
      cases inSlot

theorem Change.nextInstance_le {before between : Session} {own : List Event}
    (change : Change before between own after) :
    between.document.nextInstance ≤ after.document.nextInstance := by
  cases change with
  | listed call => exact call.nextInstance_le
  | shared => exact Nat.le_succ _
  | answered => exact Nat.le_succ _
  | nothing => exact Nat.le_refl _
  | treeSet => exact Nat.le_refl _
  | configured => exact Nat.le_refl _
  | attached => exact Nat.le_refl _
  | detached => exact Nat.le_refl _

theorem Holds.of_publishErrors {errors : List ReportedError} {slot : Nat}
    (holds : (session.publishErrors slot errors).2.Holds number identity)
    (known : slot ≤ session.document.errors.generation) :
    session.Holds number identity ∨ identity = session.document.nextInstance := by
  rw [publishErrors_eq] at holds
  rcases holds with ⟨listing, held, inSlot, same⟩ | ⟨other, held, above, otherKnown, inSlot, same⟩
  · refine .inl (.inl ⟨listing, held, ?_, same⟩)
    cases listing <;> exact inSlot
  · rw [SlotHistory.generation_store] at otherKnown
    by_cases target : other = slot
    · subst target
      rw [SlotHistory.slot_store_self _ known, Slot.held_publish] at inSlot
      cases old : (session.document.errors.slot other).held with
      | some earlier =>
          rw [old] at inSlot
          cases inSlot
          exact .inl (.inr ⟨other, held, above, known, old, same⟩)
      | none =>
          rw [old] at inSlot
          cases inSlot
          exact .inr same.symm
    · rw [SlotHistory.slot_store_of_ne _ known otherKnown target] at inSlot
      exact .inl (.inr ⟨other, held, above, otherKnown, inSlot, same⟩)

/-- What a session holds after a change was there before or is new. -/
theorem Change.old_or_new {before between : Session} {own : List Event}
    (change : Change before between own after)
    (known : before.document.errors.generation ≤ between.document.errors.generation)
    (holds : after.Holds number identity) :
    between.Holds number identity ∨
      between.document.nextInstance ≤ identity ∧ identity < after.document.nextInstance := by
  cases change with
  | nothing => exact .inl holds
  | listed call =>
      rcases holds with ⟨listing, held, inSlot, same⟩ | inErrors
      · subst same
        rcases call.old_or_new inSlot with old | new
        · exact .inl (.inl ⟨listing, held, old, rfl⟩)
        · exact .inr new
      · rw [call.keeps.2.2.2] at inErrors
        exact .inl (.inr inErrors)
  | shared =>
      exact .inl (holds.of_same (fun listing => by cases listing <;> rfl) rfl)
  | treeSet tree =>
      exact .inl (holds.of_renew (fun listing held inSlot => by cases listing <;> cases inSlot) rfl)
  | configured config =>
      exact .inl (holds.of_renew (fun listing held inSlot => by cases listing <;> cases inSlot) rfl)
  | attached model =>
      exact .inl (holds.of_renew (fun listing held inSlot => by cases listing <;> exact inSlot) rfl)
  | detached =>
      exact .inl (holds.of_renew (fun listing held inSlot => by cases listing <;> exact inSlot) rfl)
  | answered =>
      rcases holds.of_publishErrors known with old | rfl
      · exact .inl old
      · exact .inr ⟨Nat.le_refl _, Nat.lt_succ_self _⟩

end

/-! ## What lasts -/

variable {first : Shared SyntaxTree}

theorem generation_le_of_explained {past meanwhile : List Event} {before between : Session}
    (explained : Explained first past before)
    (explainedBetween : Explained first (past ++ meanwhile) between) :
    before.document.errors.generation ≤ between.document.errors.generation := by
  rw [explained.generation, explainedBetween.generation, invalidations_append]
  exact Nat.le_add_right _ _

/-- The instances there are have identities below the next one, and lists made from comments are
held together with comments. -/
structure Consistent (session : Session) : Prop where
  numbered : ∀ identity, session.Holds 0 identity → identity < session.document.nextInstance
  collected :
    ∀ (listing : Listing) (held : Shared (List listing.Item)), listing.derive?.isSome →
      (listing.place.slot session.document).held = some held →
        ∃ comments, session.document.comments.held = some comments

theorem lasting_consistent (first : Shared SyntaxTree) :
    Lasting (Explained first) fun _ session => session.Consistent where
  counted _ consistent := ⟨consistent.numbered, consistent.collected⟩
  changed := by
    intro past meanwhile own before between after explained explainedBetween consistent change
    have known := generation_le_of_explained explained explainedBetween
    refine ⟨fun identity holds => ?_, ?_⟩
    · rcases change.old_or_new known holds with held | ⟨_, small⟩
      · exact Nat.lt_of_lt_of_le (consistent.numbered identity held) change.nextInstance_le
      · exact small
    · intro listing held derives inSlot
      cases change with
      | nothing => exact consistent.collected listing held derives inSlot
      | listed call => exact call.collected consistent.collected derives inSlot
      | treeSet => cases listing <;> cases inSlot
      | configured => cases listing <;> cases inSlot
      | shared => cases listing <;> exact consistent.collected _ held derives inSlot
      | attached => cases listing <;> exact consistent.collected _ held derives inSlot
      | detached => cases listing <;> exact consistent.collected _ held derives inSlot
      | answered => cases listing <;> exact consistent.collected _ held derives inSlot

end Session

end SourceAnnotations
