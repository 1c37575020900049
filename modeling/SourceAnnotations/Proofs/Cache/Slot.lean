import SourceAnnotations.Cache.Slot

/-!
# Laws of slots

What publishing does to a slot, and the three ways in which a value is got from the slot of a
state: it is held already, its computation fails, or what has been computed is published. Slots that
have been replaced keep their numbers and what they hold.
-/

namespace SourceAnnotations

/-! ## Publishing -/

namespace Slot

variable {α : Type} {slot : Slot α} {held fresh : Shared α}

theorem publish_of_held (holds : slot.held = some held) :
    slot.publish fresh = (held, slot) := by
  rw [publish, holds]

theorem publish_of_empty (empty : slot.held = none) :
    slot.publish fresh = (fresh, ⟨some fresh⟩) := by
  rw [publish, empty]

/-- Only an empty slot takes what is published. -/
theorem held_publish (slot : Slot α) (fresh : Shared α) :
    (slot.publish fresh).2.held = slot.held.or (some fresh) := by
  cases holds : slot.held with
  | none =>
      rw [publish_of_empty holds, Option.none_or]
  | some held =>
      rw [publish_of_held holds, Option.some_or, holds]

/-- The answer to publishing is what the slot holds then. -/
theorem held_publish_eq_some_fst (slot : Slot α) (fresh : Shared α) :
    (slot.publish fresh).2.held = some (slot.publish fresh).1 := by
  cases holds : slot.held with
  | none =>
      rw [publish_of_empty holds]
  | some held =>
      rw [publish_of_held holds, holds]

end Slot

/-! ## Getting from the slot of a state -/

namespace Place

variable {σ α ε ρ : Type} {place : Place σ α} {compute : σ → Except ε α × ρ × σ}
  {state computed : σ} {report : ρ}

theorem publish_of_empty {fresh : Shared α} (empty : (place.slot state).held = none) :
    place.publish fresh state = (fresh, place.store ⟨some fresh⟩ state) := by
  rw [publish, Slot.publish_of_empty empty]

theorem getOrTry_of_held {held : Shared α} (holds : (place.slot state).held = some held) :
    place.getOrTry compute state = (.ok held, none, state) := by
  rw [getOrTry, holds]

theorem getOrTry_of_error {failure : ε} (empty : (place.slot state).held = none)
    (failed : compute state = (.error failure, report, computed)) :
    place.getOrTry compute state = (.error failure, some report, computed) := by
  rw [getOrTry, empty]
  simp only [failed]

theorem getOrTry_of_ok {value : α} (empty : (place.slot state).held = none)
    (succeeded : compute state = (.ok value, report, computed)) :
    place.getOrTry compute state =
      (.ok (place.publish (place.share value computed).1 (place.share value computed).2).1,
        some report,
        (place.publish (place.share value computed).1 (place.share value computed).2).2) := by
  rw [getOrTry, empty]
  simp only [succeeded]

end Place

/-! ## Replacing slots -/

namespace SlotHistory

variable {α : Type} (history : SlotHistory α) {number other : Nat} {slot : Slot α}

@[simp]
theorem slot_generation : history.slot history.generation = history.current := by
  simp [SlotHistory.slot, generation]

@[simp]
theorem generation_renew : history.renew.generation = history.generation + 1 := by
  simp [renew, generation]

@[simp]
theorem generation_store : (history.store number slot).generation = history.generation := by
  rw [store, generation, generation]
  split
  · exact List.length_set
  · rfl

@[simp]
theorem current_store_generation :
    (history.store history.generation slot).current = slot := by
  simp [store, generation]

/-- The slots there have been so far stay. -/
theorem slot_renew_of_le (known : number ≤ history.generation) :
    history.renew.slot number = history.slot number := by
  rw [generation] at known
  rcases Nat.lt_or_eq_of_le known with earlier | rfl
  · rw [SlotHistory.slot, SlotHistory.slot, renew, List.getElem?_append_left earlier,
      List.getElem?_eq_getElem earlier, Option.getD_some, Option.getD_some]
  · simp [SlotHistory.slot, renew]

theorem slot_store_self (known : number ≤ history.generation) :
    (history.store number slot).slot number = slot := by
  rw [generation] at known
  rcases Nat.lt_or_eq_of_le known with earlier | rfl
  · simp [SlotHistory.slot, store, earlier]
  · simp [SlotHistory.slot, store]

theorem slot_store_of_ne (known : number ≤ history.generation)
    (otherKnown : other ≤ history.generation) (different : other ≠ number) :
    (history.store number slot).slot other = history.slot other := by
  rw [generation] at known otherKnown
  rcases Nat.lt_or_eq_of_le known with earlier | rfl
  · simp [SlotHistory.slot, store, earlier, Ne.symm different]
  · have earlier : other < history.replaced.length := by omega
    simp [SlotHistory.slot, store, earlier]

end SlotHistory

end SourceAnnotations
