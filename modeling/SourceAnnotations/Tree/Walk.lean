import SourceAnnotations.Cancellation
import SourceAnnotations.Tree.Cursor

/-!
# Walks

A walk moves a cursor through a tree in the order of the text and shows every row it comes to to a
visitor, which keeps a state and says each time whether the rows below are to be visited too.
-/

namespace SourceAnnotations

inductive Visit
  | descend
  | skip
deriving DecidableEq, Repr

namespace Cursor

def step? (cursor : Cursor) (visit : Visit) : Option Cursor :=
  match visit with
  | .descend => cursor.firstChild?.or cursor.afterFocus?
  | .skip => cursor.afterFocus?

theorem remaining_step {cursor next : Cursor} {visit : Visit}
    (moved : cursor.step? visit = some next) : next.remaining < cursor.remaining := by
  cases visit with
  | skip => exact remaining_afterFocus moved
  | descend =>
    simp only [step?, Option.or_eq_some_iff] at moved
    rcases moved with down | ⟨_, after⟩
    · exact remaining_firstChild down
    · exact remaining_afterFocus after

/-- The state in which a walk from a cursor on ends. -/
def walk {σ : Type} (visit : σ → Cursor → σ × Visit) (state : σ) (cursor : Cursor) : σ :=
  let (next, wanted) := visit state cursor
  match _ : cursor.step? wanted with
  | none => next
  | some place => walk visit next place
termination_by cursor.remaining
decreasing_by
  exact remaining_step ‹_›

/-- A walk visits a row and goes on from where the visitor sends it. -/
theorem walk_eq {σ : Type} (visit : σ → Cursor → σ × Visit) (state : σ) (cursor : Cursor) :
    cursor.walk visit state =
      match cursor.step? (visit state cursor).2 with
      | none => (visit state cursor).1
      | some place => place.walk visit (visit state cursor).1 := by
  rw [walk]
  generalize visit state cursor = visited
  obtain ⟨next, wanted⟩ := visited
  simp only
  split <;> simp_all

end Cursor

/-- The state in which a walk through a whole tree ends. A cancelled walk visits nothing. -/
def walkTree {σ : Type} (cancellation : Cancellation) (visit : σ → Cursor → σ × Visit)
    (state : σ) (root : Node) : Except DocumentError σ := do
  cancellation.check
  return Cursor.walk visit state (.atRoot root)

end SourceAnnotations
