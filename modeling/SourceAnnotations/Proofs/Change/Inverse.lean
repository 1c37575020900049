import SourceAnnotations.Proofs.Change.Reparse

/-!
# Undoing changes

The inverse of an edit deletes at its place what the edit has inserted, and inserts what it has
deleted.  It fits the text that the edit leaves, and it gives back the text that the edit was
applied to.  A change is undone by the inverses of its edits in the opposite order, each of which
finds the text as its edit has left it.  So the inverse of an honest change is an honest change from
the new text to the old one, and a reparse follows both.
-/

namespace SourceAnnotations

/-! ## Inverses -/

namespace TextEdit

variable {edit : TextEdit} {text : Text}

def inverse (edit : TextEdit) : TextEdit :=
  ⟨edit.start, edit.inserted, edit.deleted⟩

theorem Fits.inverse (fits : edit.Fits text) : edit.inverse.Fits (edit.edited text) := by
  obtain ⟨front, rest, rfl, size⟩ := fits_iff_exists_split.mp fits
  rw [edited_split rest size, List.append_assoc]
  exact fits_iff_exists_split.mpr ⟨front, rest, rfl, size⟩

theorem Fits.edited_inverse (fits : edit.Fits text) :
    edit.inverse.edited (edit.edited text) = text := by
  obtain ⟨front, rest, rfl, size⟩ := fits_iff_exists_split.mp fits
  have restored : edit.inverse.edited (front ++ (edit.inserted ++ rest)) =
      front ++ edit.deleted ++ rest :=
    edited_split rest size
  rw [edited_split rest size, List.append_assoc, restored, List.append_assoc]

end TextEdit

/-- The inverses of edits, the last edit's first. -/
def inverseEdits (edits : List TextEdit) : List TextEdit :=
  edits.reverse.map TextEdit.inverse

def TextChange.inverse (change : TextChange) : TextChange :=
  ⟨change.charsAfter, change.charsBefore, inverseEdits change.edits⟩

/-! ## Edits in the opposite order -/

section

variable {first second edits : List TextEdit} {text : Text}

theorem editedText_append :
    editedText (first ++ second) text = editedText second (editedText first text) :=
  List.foldl_append

theorem editsFit_append_iff :
    EditsFit (first ++ second) text ↔
      EditsFit first text ∧ EditsFit second (editedText first text) := by
  induction first generalizing text with
  | nil => exact (true_and _).symm.to_iff
  | cons edit rest inductionHypothesis =>
      rw [List.cons_append, EditsFit, EditsFit, inductionHypothesis, and_assoc]
      rfl

/-- Edits that fit are undone by their inverses: those of the later edits lead back to the text that
the first edit leaves, and its own inverse leads from there to the text before all. -/
theorem EditsFit.undone (fit : EditsFit edits text) :
    EditsFit (inverseEdits edits) (editedText edits text) ∧
      editedText (inverseEdits edits) (editedText edits text) = text := by
  induction edits generalizing text with
  | nil => exact ⟨trivial, rfl⟩
  | cons edit rest inductionHypothesis =>
      obtain ⟨fits, restFit⟩ := fit
      obtain ⟨laterFit, laterUndone⟩ := inductionHypothesis restFit
      have lastIsOwn : inverseEdits (edit :: rest) =
          inverseEdits rest ++ [edit.inverse] := by
        rw [inverseEdits, List.reverse_cons, List.map_append]
        rfl
      have edited : editedText (edit :: rest) text = editedText rest (edit.edited text) := rfl
      rw [lastIsOwn, edited, editsFit_append_iff, editedText_append, laterUndone]
      exact ⟨⟨laterFit, fits.inverse, trivial⟩, fits.edited_inverse⟩

end

/-! ## Changes -/

namespace TextChange

variable {change : TextChange} {text fullText : Text} {edited : IndexedText}

theorem Honest.inverse (honest : change.Honest text fullText) :
    change.inverse.Honest fullText text := by
  obtain ⟨before, fit, after, rfl⟩ := honest
  obtain ⟨inverseFit, undone⟩ := fit.undone
  exact ⟨after, inverseFit, before.trans (congrArg List.length undone.symm), undone⟩

/-- A change can be applied to a text with its index exactly when it says truly how the text
becomes another one, and then it gives the other text with its index. -/
theorem applyTo?_ofText_eq_some_iff :
    change.applyTo? (.ofText text) = some edited ↔
      change.Honest text edited.text ∧ edited = .ofText edited.text := by
  have followed := change.applyTo?_ofText_filter text edited.text
  constructor
  · intro applied
    rw [applied, Option.filter_some, if_pos (decide_eq_true rfl)] at followed
    split at followed
    · next honest => exact ⟨honest, Option.some.inj followed⟩
    · cases followed
  · rintro ⟨honest, isOfText⟩
    rw [if_pos honest, ← isOfText] at followed
    exact Option.eq_some_of_filter_eq_some followed

end TextChange

/-! ## Reparsing to and fro -/

/-- What a change does to a text and its index the inverse change undoes, and a reparse that follows
the change and one that follows its inverse lead back to the text and its index. -/
theorem changes_are_undone_by_inverses (text : Text) (change : TextChange)
    (edited : IndexedText) (applied : change.applyTo? (.ofText text) = some edited) :
    change.inverse.applyTo? edited = some (.ofText text) ∧
      ∀ old : SyntaxTree, old.Reached → old.text = text → ∀ root rootBefore : Node,
        let (successor, mode) := old.reparse change edited.text root
        let (restored, modeBack) := successor.reparse change.inverse text rootBefore
        mode = .incremental ∧ successor.text = edited.text ∧ modeBack = .incremental ∧
          restored.text = text ∧ restored.index = .ofText text := by
  obtain ⟨honest, isOfText⟩ := TextChange.applyTo?_ofText_eq_some_iff.mp applied
  constructor
  · rw [isOfText]
    exact TextChange.applyTo?_ofText_eq_some_iff.mpr ⟨honest.inverse, rfl⟩
  · rintro old reached rfl root rootBefore
    have forth : old.reparse change edited.text root =
        (.ofText edited.text root, .incremental) := by
      rw [reached.eq_ofText, SyntaxTree.reparse_ofText]
      exact congrArg (_, ·) (if_pos honest)
    have back : (SyntaxTree.ofText edited.text root).reparse change.inverse old.text rootBefore =
        (.ofText old.text rootBefore, .incremental) := by
      rw [SyntaxTree.reparse_ofText, if_pos honest.inverse]
    rw [forth]
    dsimp only
    rw [back]
    exact ⟨rfl, rfl, rfl, rfl, rfl⟩

/-- The second edit deletes a part of what the first one inserts, and the third one stands at the
end and deletes nothing. -/
theorem changes_are_undone_by_inverses_overlapping :
    let old := SyntaxTree.ofText ['a', 'é', '\n', 'z'] default
    let change : TextChange :=
      ⟨4, 6, [⟨1, ['é'], ['x', '😀', 'y']⟩, ⟨2, ['😀', 'y'], []⟩, ⟨4, [], ['\r', '\n']⟩]⟩
    let edited := IndexedText.ofText ['a', 'x', '\n', 'z', '\r', '\n']
    let (successor, mode) := old.reparse change edited.text default
    let (restored, modeBack) := successor.reparse change.inverse old.text default
    change.applyTo? (.ofText old.text) = some edited ∧
      change.inverse.applyTo? edited = some (.ofText old.text) ∧
        mode = .incremental ∧ successor.text = edited.text ∧ modeBack = .incremental ∧
          restored.text = old.text ∧ restored.index = .ofText old.text := by
  have applied :
      TextChange.applyTo?
          ⟨4, 6, [⟨1, ['é'], ['x', '😀', 'y']⟩, ⟨2, ['😀', 'y'], []⟩, ⟨4, [], ['\r', '\n']⟩]⟩
          (.ofText ['a', 'é', '\n', 'z']) =
        some (.ofText ['a', 'x', '\n', 'z', '\r', '\n']) := by
    decide
  obtain ⟨undone, reparsed⟩ := changes_are_undone_by_inverses _ _ _ applied
  exact ⟨applied, undone, reparsed (.ofText _ default) (.parsed _ default) rfl default default⟩

end SourceAnnotations
