import Mathlib.Data.Option.Basic
import SourceAnnotations.Change
import SourceAnnotations.Proofs.Text.Bytes
import SourceAnnotations.Proofs.Text.Locations

/-!
# Edits as character edits

An edit cuts the text by bytes and its index by characters.  Here both are compared with one edit
on the list of characters, which says where the edit fits and what it leaves:

* an edit fits a text when it starts within the text and the text has there what it deletes;
* applied to a text with an index of its own, an edit that fits gives the edited text with an index
  of its own, and any other edit is refused.

So the text and its index hold the same characters however many edits are applied.
-/

namespace SourceAnnotations

def IndexedText.ofText (text : Text) : IndexedText :=
  ⟨text, .ofText text⟩

/-! ## One edit -/

namespace TextEdit

/-- The edit starts within the text, and the text has there what the edit deletes. -/
def Fits (edit : TextEdit) (text : Text) : Prop :=
  edit.start ≤ text.length ∧ edit.deleted <+: text.drop edit.start

instance (edit : TextEdit) (text : Text) : Decidable (edit.Fits text) :=
  inferInstanceAs (Decidable (_ ∧ _))

def edited (edit : TextEdit) (text : Text) : Text :=
  text.take edit.start ++ edit.inserted ++ text.drop (edit.start + edit.deleted.length)

/-- An edit fits where the text splits into a part of as many characters as the edit starts at, the
deleted text and a rest. -/
theorem fits_iff_exists_split {edit : TextEdit} {text : Text} :
    edit.Fits text ↔
      ∃ front rest, text = front ++ (edit.deleted ++ rest) ∧ front.length = edit.start := by
  constructor
  · rintro ⟨within, rest, shape⟩
    refine ⟨text.take edit.start, rest, ?_, List.length_take_of_le within⟩
    rw [shape, List.take_append_drop]
  · rintro ⟨front, rest, rfl, size⟩
    constructor
    · rw [List.length_append, size]
      exact Nat.le_add_right _ _
    · rw [← size, List.drop_left]
      exact List.prefix_append edit.deleted rest

theorem edited_split {edit : TextEdit} {front : Text} (rest : Text)
    (size : front.length = edit.start) :
    edit.edited (front ++ (edit.deleted ++ rest)) = front ++ edit.inserted ++ rest := by
  rw [edited, ← size, List.take_left, ← List.length_append, ← List.append_assoc front,
    List.drop_left]

/-- The index follows an edit by deleting and then inserting at one place. -/
theorem insert_delete_ofText (edit : TextEdit) {text : Text} (within : edit.start ≤ text.length) :
    ((IndexedText.ofText text).index.delete edit.start edit.deleted.length).insert
        edit.start edit.inserted =
      .ofText (edit.edited text) := by
  have size : (text.take edit.start).length = edit.start := List.length_take_of_le within
  simp only [IndexedText.ofText, LineIndex.ofText, LineIndex.delete, LineIndex.insert, edited,
    LineIndex.mk.injEq]
  rw [List.take_append_of_le_length (Nat.le_of_eq size.symm), List.take_of_length_le
    (Nat.le_of_eq size), List.drop_append_of_le_length (Nat.le_of_eq size.symm),
    List.drop_of_length_le (Nat.le_of_eq size), List.nil_append]

/-! ### The three ways an edit can go -/

theorem applyTo?_of_deleted_eq {edit : TextEdit} {source : IndexedText} {text : Text}
    (within : edit.start ≤ source.index.charCount)
    (sliced :
      source.text.slice? (source.index.byteOfChar edit.start)
          (source.index.byteOfChar edit.start + edit.deleted.byteSize) =
        some edit.deleted)
    (replaced :
      source.text.replaceBytes? (source.index.byteOfChar edit.start)
          (source.index.byteOfChar edit.start + edit.deleted.byteSize) edit.inserted =
        some text) :
    edit.applyTo? source =
      some ⟨text,
        (source.index.delete edit.start edit.deleted.length).insert edit.start edit.inserted⟩ := by
  simp [applyTo?, guard, within, sliced, replaced]

theorem applyTo?_of_deleted_ne {edit : TextEdit} {source : IndexedText}
    (sliced :
      source.text.slice? (source.index.byteOfChar edit.start)
          (source.index.byteOfChar edit.start + edit.deleted.byteSize) ≠
        some edit.deleted) :
    edit.applyTo? source = none := by
  simp [applyTo?, guard, sliced]

theorem applyTo?_of_start_beyond {edit : TextEdit} {source : IndexedText}
    (beyond : ¬ edit.start ≤ source.index.charCount) :
    edit.applyTo? source = none := by
  simp [applyTo?, guard, beyond]

/-! ### Both views of an edit -/

theorem applyTo?_ofText_of_fits {edit : TextEdit} {text : Text} (fits : edit.Fits text) :
    edit.applyTo? (.ofText text) = some (.ofText (edit.edited text)) := by
  have within := fits.1
  have index := insert_delete_ofText edit within
  obtain ⟨front, rest, rfl, size⟩ := fits_iff_exists_split.mp fits
  have startByte :
      (IndexedText.ofText (front ++ (edit.deleted ++ rest))).index.byteOfChar edit.start =
        front.byteSize :=
    LineIndex.byteOfChar_append (edit.deleted ++ rest) size
  have sliced :
      Text.slice? (front ++ (edit.deleted ++ rest)) front.byteSize
          (front.byteSize + edit.deleted.byteSize) =
        some edit.deleted :=
    Text.slice?_byteSize_eq_some_iff.mpr (List.prefix_append edit.deleted rest)
  have replaced := Text.replaceBytes?_byteSize_append front edit.deleted rest edit.inserted
  rw [← edited_split rest size] at replaced
  rw [← startByte] at sliced replaced
  have applied :
      edit.applyTo? (.ofText (front ++ (edit.deleted ++ rest))) = some ⟨_, _⟩ :=
    applyTo?_of_deleted_eq within sliced replaced
  rw [applied, index]
  rfl

theorem applyTo?_ofText_of_not_fits {edit : TextEdit} {text : Text} (misfit : ¬ edit.Fits text) :
    edit.applyTo? (.ofText text) = none := by
  by_cases within : edit.start ≤ text.length
  · obtain ⟨front, rest, rfl, size⟩ := Text.exists_split_of_le within
    have startByte :
        (IndexedText.ofText (front ++ rest)).index.byteOfChar edit.start = front.byteSize :=
      LineIndex.byteOfChar_append rest size
    apply applyTo?_of_deleted_ne
    intro sliced
    rw [startByte] at sliced
    have deleted : edit.deleted <+: rest := Text.slice?_byteSize_eq_some_iff.mp sliced
    apply misfit
    refine ⟨within, ?_⟩
    rw [← size, List.drop_left]
    exact deleted
  · exact applyTo?_of_start_beyond within

end TextEdit

/-! ## Edits in order -/

/-- Each edit in turn fits the text that the edits before it leave. -/
def EditsFit : List TextEdit → Text → Prop
  | [], _ => True
  | edit :: rest, text => edit.Fits text ∧ EditsFit rest (edit.edited text)

instance decidableEditsFit : (edits : List TextEdit) → (text : Text) → Decidable (EditsFit edits text)
  | [], _ => isTrue trivial
  | edit :: rest, text =>
      let _ := decidableEditsFit rest (edit.edited text)
      inferInstanceAs (Decidable (edit.Fits text ∧ EditsFit rest (edit.edited text)))

/-- The text that edits leave, each applied to what the ones before it leave. -/
def editedText (edits : List TextEdit) (text : Text) : Text :=
  edits.foldl (fun current edit => edit.edited current) text

theorem applyEdits?_ofText_of_fit {edits : List TextEdit} {text : Text}
    (fit : EditsFit edits text) :
    applyEdits? edits (.ofText text) = some (.ofText (editedText edits text)) := by
  induction edits generalizing text with
  | nil =>
      rfl
  | cons edit rest inductionHypothesis =>
      rw [applyEdits?, TextEdit.applyTo?_ofText_of_fits fit.1, Option.bind_some]
      exact inductionHypothesis fit.2

theorem applyEdits?_ofText_of_not_fit {edits : List TextEdit} {text : Text}
    (misfit : ¬ EditsFit edits text) :
    applyEdits? edits (.ofText text) = none := by
  induction edits generalizing text with
  | nil =>
      exact False.elim (misfit trivial)
  | cons edit rest inductionHypothesis =>
      rw [applyEdits?]
      by_cases fits : edit.Fits text
      · rw [TextEdit.applyTo?_ofText_of_fits fits, Option.bind_some]
        exact inductionHypothesis fun restFit => misfit ⟨fits, restFit⟩
      · rw [TextEdit.applyTo?_ofText_of_not_fits fits, Option.bind_none]

end SourceAnnotations
