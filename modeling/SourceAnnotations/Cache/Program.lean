import SourceAnnotations.Cache.Slot

/-!
# Programs on a slot

A program is a list of steps on one slot. A step that computes a value on a miss may run a program
of its own on the same slot before the value is there, to any depth.
-/

namespace SourceAnnotations

/-- A step on a slot of values of type `α`; computations fail with `ε`. -/
inductive SlotStep (α ε : Type)
  | get
  | isPublished
  | describe
  | publish (value : α)
  /-- Publishes the instance once more that was the `index`-th to be handed out. -/
  | republish (index : Nat)
  /-- Computes `outcome` on a miss, running `during` before it is known. -/
  | getOrTry (during : List (SlotStep α ε)) (outcome : Except ε α)

inductive SlotResult (α ε : Type)
  | held (held : Option (Shared α))
  | published (isPublished : Bool)
  | described (text : String)
  | installed (held : Shared α)
  /-- No instance with that index has been handed out. -/
  | unknown
  /-- What was got, and the answers of the steps that ran meanwhile. -/
  | got (result : Except ε (Shared α)) (during : List (SlotResult α ε))

structure SlotRun (α : Type) where
  slot : Slot α
  /-- The identity of the next instance. -/
  nextId : Nat
  /-- The instances handed out so far, each once, in the order in which they were. -/
  handedOut : List (Shared α)

namespace SlotRun

variable {α : Type}

def start : SlotRun α := ⟨.empty, 0, []⟩

def handOut (run : SlotRun α) (held : Shared α) : SlotRun α :=
  if run.handedOut.any (·.id = held.id) then run
  else { run with handedOut := run.handedOut ++ [held] }

def place : Place (SlotRun α) α where
  slot run := run.slot
  store slot run := { run with slot := slot }
  share value run := (⟨run.nextId, value⟩, { run with nextId := run.nextId + 1 })

/-- Publishes an instance and hands out the one held then. -/
def install {ε : Type} (run : SlotRun α) (fresh : Shared α) : SlotResult α ε × SlotRun α :=
  let (held, run) := place.publish fresh run
  (.installed held, run.handOut held)

end SlotRun

mutual

def SlotStep.perform {α ε : Type} (run : SlotRun α) :
    SlotStep α ε → SlotResult α ε × SlotRun α
  | .get => (.held run.slot.held, run.slot.held.elim run run.handOut)
  | .isPublished => (.published run.slot.isPublished, run)
  | .describe => (.described (run.slot.describe "slot"), run)
  | .publish value =>
      let (fresh, run) := SlotRun.place.share value run
      run.install fresh
  | .republish index =>
      match run.handedOut[index]? with
      | some held => run.install held
      | none => (.unknown, run)
  | .getOrTry during outcome =>
      let (result, report, run) :=
        SlotRun.place.getOrTry
          (fun run =>
            let (results, run) := performAll run during
            (outcome, results, run))
          run
      let run := result.toOption.elim run run.handOut
      (.got result (report.getD []), run)

def performAll {α ε : Type} (run : SlotRun α) :
    List (SlotStep α ε) → List (SlotResult α ε) × SlotRun α
  | [] => ([], run)
  | step :: rest =>
      let (result, run) := SlotStep.perform run step
      let (results, run) := performAll run rest
      (result :: results, run)

end

end SourceAnnotations
