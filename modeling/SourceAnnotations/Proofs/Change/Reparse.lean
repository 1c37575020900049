import SourceAnnotations.Proofs.Change.Edits

/-!
# Reparsing follows the host's text

A parsed text that is reached from a first parse by any chain of reparses has the index of its own
text.  From there a reparse always ends at the text the host has, with a fresh index of it.  It
follows the change exactly when the change is honest: its two numbers of characters are right, each
of its edits fits in turn, and the edits lead to the host's text.
-/

namespace SourceAnnotations

/-! ## Honest changes -/

/-- The change says truly how `text` became `fullText`. -/
structure TextChange.Honest (change : TextChange) (text fullText : Text) : Prop where
  charsBefore : change.charsBefore = text.length
  edits : EditsFit change.edits text
  charsAfter : change.charsAfter = (editedText change.edits text).length
  reaches : editedText change.edits text = fullText

namespace TextChange

theorem honest_iff {change : TextChange} {text fullText : Text} :
    change.Honest text fullText ↔
      change.charsBefore = text.length ∧
        EditsFit change.edits text ∧
          change.charsAfter = (editedText change.edits text).length ∧
            editedText change.edits text = fullText :=
  ⟨fun honest => ⟨honest.charsBefore, honest.edits, honest.charsAfter, honest.reaches⟩,
    fun ⟨before, edits, after, reaches⟩ => ⟨before, edits, after, reaches⟩⟩

instance (change : TextChange) (text fullText : Text) :
    Decidable (change.Honest text fullText) :=
  decidable_of_iff _ honest_iff.symm

theorem applyTo?_ofText {change : TextChange} {text : Text} {edited : IndexedText}
    (before : change.charsBefore = text.length)
    (applied : applyEdits? change.edits (.ofText text) = some edited) :
    change.applyTo? (.ofText text) =
      if change.charsAfter = edited.index.charCount then some edited else none := by
  have charCount : (IndexedText.ofText text).index.charCount = text.length := rfl
  by_cases after : change.charsAfter = edited.index.charCount
  · simp [applyTo?, guard, charCount, before, applied, after]
  · simp [applyTo?, guard, charCount, before, applied, after, Ne.symm after]

theorem applyTo?_ofText_eq_none {change : TextChange} {text : Text}
    (refused :
      change.charsBefore ≠ text.length ∨ applyEdits? change.edits (.ofText text) = none) :
    change.applyTo? (.ofText text) = none := by
  have charCount : (IndexedText.ofText text).index.charCount = text.length := rfl
  rcases refused with before | edits
  · simp [applyTo?, guard, charCount, Ne.symm before]
  · simp [applyTo?, guard, edits]

/-- A change can be applied and leads to `fullText` exactly when it is honest. -/
theorem applyTo?_ofText_filter (change : TextChange) (text fullText : Text) :
    (change.applyTo? (.ofText text)).filter (fun edited => edited.text = fullText) =
      if change.Honest text fullText then some (.ofText fullText) else none := by
  by_cases before : change.charsBefore = text.length
  · by_cases fit : EditsFit change.edits text
    · rw [applyTo?_ofText before (applyEdits?_ofText_of_fit fit)]
      have charCount :
          (IndexedText.ofText (editedText change.edits text)).index.charCount =
            (editedText change.edits text).length :=
        rfl
      rw [charCount]
      by_cases after : change.charsAfter = (editedText change.edits text).length
      · rw [if_pos after]
        by_cases reaches : editedText change.edits text = fullText
        · rw [if_pos ⟨before, fit, after, reaches⟩, reaches]
          simp [IndexedText.ofText]
        · rw [if_neg fun honest => reaches honest.reaches]
          simp [IndexedText.ofText, reaches]
      · rw [if_neg after, if_neg fun honest => after honest.charsAfter, Option.filter_none]
    · rw [applyTo?_ofText_eq_none (.inr (applyEdits?_ofText_of_not_fit fit)),
        if_neg fun honest => fit honest.edits, Option.filter_none]
  · rw [applyTo?_ofText_eq_none (.inl before),
      if_neg fun honest => before honest.charsBefore, Option.filter_none]

end TextChange

/-! ## Chains of reparses -/

namespace SyntaxTree

/-- The parsed texts that are reached from a first parse by reparses, whatever the changes are and
whatever trees the parser makes. -/
inductive Reached : SyntaxTree → Prop
  | parsed (text : Text) (root : Node) : Reached (.ofText text root)
  | reparsed {old : SyntaxTree} (change : TextChange) (fullText : Text) (root : Node) :
      Reached old → Reached (old.reparse change fullText root).1

/-- From a text with a fresh index, a reparse ends at the host's text with a fresh index, by either
way. -/
theorem reparse_ofText (text fullText : Text) (oldRoot root : Node) (change : TextChange) :
    (SyntaxTree.ofText text oldRoot).reparse change fullText root =
      (.ofText fullText root,
        if change.Honest text fullText then .incremental else .fullReparse) := by
  have followed := change.applyTo?_ofText_filter text fullText
  have indexed : (SyntaxTree.ofText text oldRoot).indexedText = .ofText text := rfl
  rw [reparse, indexed, followed]
  by_cases honest : change.Honest text fullText
  · rw [if_pos honest, if_pos honest]
    rfl
  · rw [if_neg honest, if_neg honest]

/-- What is reached always has a fresh index of its own text. -/
theorem Reached.eq_ofText {tree : SyntaxTree} (reached : Reached tree) :
    tree = .ofText tree.text tree.root := by
  induction reached with
  | parsed text root =>
      rfl
  | @reparsed old change fullText root _ inductionHypothesis =>
      rw [inductionHypothesis, reparse_ofText]
      rfl

/-- A reparse of what has been reached has the host's text and a fresh index of it, and it is
incremental exactly when the change is honest. -/
theorem reparse_follows_host_text {old : SyntaxTree} (reached : Reached old)
    (change : TextChange) (fullText : Text) (root : Node) :
    let (successor, mode) := old.reparse change fullText root
    successor.text = fullText ∧
      successor.index = .ofText fullText ∧
        (mode = .incremental ↔ change.Honest old.text fullText) ∧
          (mode = .fullReparse ↔ ¬ change.Honest old.text fullText) := by
  have successor := reparse_ofText old.text fullText old.root root change
  rw [← reached.eq_ofText] at successor
  rw [successor]
  refine ⟨rfl, rfl, ?_, ?_⟩
  · by_cases honest : change.Honest old.text fullText <;> simp [honest]
  · by_cases honest : change.Honest old.text fullText <;> simp [honest]

/-- The second edit counts its start in what the first one leaves, and both lie behind characters of
more than one byte. -/
theorem reparse_follows_host_text_two_edits :
    let old := SyntaxTree.ofText ['a', 'é', '😀', 'z'] default
    let change : TextChange := ⟨4, 5, [⟨1, ['é'], ['x', 'ß', 'y']⟩, ⟨4, ['😀'], []⟩]⟩
    let (successor, mode) := old.reparse change ['a', 'x', 'ß', 'y', 'z'] default
    Reached old ∧
      successor.text = ['a', 'x', 'ß', 'y', 'z'] ∧
        successor.index = .ofText ['a', 'x', 'ß', 'y', 'z'] ∧
          mode = .incremental := by
  have reached : Reached (.ofText ['a', 'é', '😀', 'z'] default) := .parsed _ _
  obtain ⟨text, index, incremental, _⟩ :=
    reparse_follows_host_text reached ⟨4, 5, [⟨1, ['é'], ['x', 'ß', 'y']⟩, ⟨4, ['😀'], []⟩]⟩
      ['a', 'x', 'ß', 'y', 'z'] default
  exact ⟨reached, text, index, incremental.mpr (by decide)⟩

end SyntaxTree

end SourceAnnotations
