/-!
# Slots

A slot caches a value that is expensive to compute. It is empty until an instance of the value is
published, and from then on it holds that instance: whoever publishes later is given the one held.
An instance has an identity besides its value, so that two equal values can still be told apart.

A slot is mostly part of a larger state, and a computation on a miss may change that state, the slot
itself included. A place says where in the state the slot is.
-/

namespace SourceAnnotations

/-! ## Instances and slots -/

/-- A value with an identity. -/
structure Shared (α : Type) where
  id : Nat
  value : α
deriving DecidableEq, Repr

/-- A cache for one instance. -/
structure Slot (α : Type) where
  held : Option (Shared α)
deriving DecidableEq, Repr

namespace Slot

variable {α : Type}

def empty : Slot α := ⟨none⟩

def isPublished (slot : Slot α) : Bool :=
  slot.held.isSome

/-- Publishes an instance. The answer is the instance the slot holds then. -/
def publish (slot : Slot α) (fresh : Shared α) : Shared α × Slot α :=
  match slot.held with
  | some held => (held, slot)
  | none => (fresh, ⟨some fresh⟩)

def describe (slot : Slot α) (name : String) : String :=
  "PublishSlot \x7b name: \"" ++ name ++ "\", published: " ++ toString slot.isPublished ++ " \x7d"

end Slot

/-! ## Slots within a state -/

/-- Where a slot is in a state, and how the state gives a value an identity of its own. -/
structure Place (σ α : Type) where
  slot : σ → Slot α
  store : Slot α → σ → σ
  share : α → σ → Shared α × σ

namespace Place

variable {σ α ε ρ : Type}

/-- Publishes an instance to the slot of a state. -/
def publish (place : Place σ α) (fresh : Shared α) (state : σ) : Shared α × σ :=
  let (held, slot) := (place.slot state).publish fresh
  (held, place.store slot state)

/-- The instance that the slot of a state holds. On a miss it is computed first, which may fail and
may change the state, and what has been computed is published. `ρ` is what the computation reports
besides its value; there is no report on a hit. -/
def getOrTry (place : Place σ α) (compute : σ → Except ε α × ρ × σ) (state : σ) :
    Except ε (Shared α) × Option ρ × σ :=
  match (place.slot state).held with
  | some held => (.ok held, none, state)
  | none =>
      match compute state with
      | (.error failure, report, state) => (.error failure, some report, state)
      | (.ok value, report, state) =>
          let (fresh, state) := place.share value state
          let (held, state) := place.publish fresh state
          (.ok held, some report, state)

end Place

/-! ## Slots that replace each other -/

/-- A slot and the ones it has replaced, the oldest first. A computation that began with one of them
publishes to that one, even when it has been replaced in the meantime. -/
structure SlotHistory (α : Type) where
  replaced : List (Slot α)
  current : Slot α
deriving DecidableEq, Repr

namespace SlotHistory

variable {α : Type}

def empty : SlotHistory α := ⟨[], .empty⟩

/-- The number of the current slot, the first having number zero. -/
def generation (history : SlotHistory α) : Nat :=
  history.replaced.length

def renew (history : SlotHistory α) : SlotHistory α :=
  ⟨history.replaced ++ [history.current], .empty⟩

def slot (history : SlotHistory α) (number : Nat) : Slot α :=
  (history.replaced[number]?).getD history.current

def store (history : SlotHistory α) (number : Nat) (slot : Slot α) : SlotHistory α :=
  if number < history.replaced.length then
    { history with replaced := history.replaced.set number slot }
  else
    { history with current := slot }

end SlotHistory

end SourceAnnotations
