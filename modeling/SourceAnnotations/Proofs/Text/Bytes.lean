import SourceAnnotations.Text.Basic

/-!
# Cuts by bytes

A cut at a byte offset exists exactly where the text splits into two parts of which the first has
that many bytes.  So a slice is a middle part of the text, and replacing it changes that part only.
The statements turn every offset in bytes into a split of the text into characters; what is proved
of an edited text is then proved of lists.
-/

namespace SourceAnnotations.Text

/-! ## Numbers of bytes -/

@[simp]
theorem byteSize_nil : byteSize [] = 0 :=
  rfl

@[simp]
theorem byteSize_cons (head : Char) (tail : Text) :
    byteSize (head :: tail) = head.utf8Size + byteSize tail :=
  rfl

@[simp]
theorem byteSize_append (front rest : Text) :
    byteSize (front ++ rest) = byteSize front + byteSize rest := by
  induction front with
  | nil =>
      simp
  | cons head tail inductionHypothesis =>
      simp only [List.cons_append, byteSize_cons, inductionHypothesis]
      omega

theorem byteSize_pos {text : Text} (nonempty : text ≠ []) : 0 < byteSize text := by
  cases text with
  | nil => exact absurd rfl nonempty
  | cons head tail => exact Nat.lt_of_lt_of_le head.utf8Size_pos (Nat.le_add_right _ _)

/-! ## Cuts by characters -/

theorem exists_split_of_le {text : Text} {offset : Nat} (within : offset ≤ text.length) :
    ∃ front rest, text = front ++ rest ∧ front.length = offset :=
  ⟨text.take offset, text.drop offset, (List.take_append_drop offset text).symm,
    List.length_take_of_le within⟩

/-- A character and a later one, or the end, cut a text in three. -/
theorem exists_split_of_lt {text : Text} {offset later : Nat} (ordered : offset < later)
    (within : later ≤ text.length) :
    ∃ front middle rest, text = front ++ (middle ++ rest) ∧ middle ≠ [] ∧
      front.length = offset ∧ (front ++ middle).length = later := by
  obtain ⟨part, rest, rfl, rfl⟩ := exists_split_of_le within
  obtain ⟨front, middle, rfl, rfl⟩ := exists_split_of_le (Nat.le_of_lt ordered)
  refine ⟨front, middle, rest, List.append_assoc front middle rest, ?_, rfl, rfl⟩
  rintro rfl
  rw [List.append_nil] at ordered
  exact Nat.lt_irrefl _ ordered

/-! ## The part before a cut -/

theorem takeBytes?_cons {head : Char} {tail : Text} {bytes : Nat} (nonzero : bytes ≠ 0) :
    takeBytes? (head :: tail) bytes =
      if head.utf8Size ≤ bytes then
        (takeBytes? tail (bytes - head.utf8Size)).map (head :: ·)
      else
        none := by
  rw [takeBytes?]
  exact nonzero

theorem takeBytes?_byteSize_append (front rest : Text) :
    takeBytes? (front ++ rest) (byteSize front) = some front := by
  induction front with
  | nil =>
      cases rest <;> rfl
  | cons head tail inductionHypothesis =>
      have nonzero : head.utf8Size + byteSize tail ≠ 0 := by
        have positive := head.utf8Size_pos
        omega
      rw [byteSize_cons, List.cons_append, takeBytes?_cons nonzero,
        if_pos (Nat.le_add_right _ _), Nat.add_sub_cancel_left,
        inductionHypothesis, Option.map_some]

/-- The part before a cut is a part of the text that has as many bytes as the cut is at. -/
theorem exists_rest_of_takeBytes? {text front : Text} {bytes : Nat}
    (cut : takeBytes? text bytes = some front) :
    (∃ rest, text = front ++ rest) ∧ byteSize front = bytes := by
  induction text generalizing bytes front with
  | nil =>
      cases bytes with
      | zero =>
          simp only [takeBytes?, Option.some.injEq] at cut
          subst front
          exact ⟨⟨[], rfl⟩, rfl⟩
      | succ bytes =>
          simp [takeBytes?] at cut
  | cons head tail inductionHypothesis =>
      cases bytes with
      | zero =>
          simp only [takeBytes?, Option.some.injEq] at cut
          subst front
          exact ⟨⟨head :: tail, rfl⟩, rfl⟩
      | succ bytes =>
          rw [takeBytes?_cons (Nat.succ_ne_zero bytes)] at cut
          split at cut
          · next fits =>
            obtain ⟨part, tailCut, rfl⟩ := Option.map_eq_some_iff.mp cut
            obtain ⟨⟨rest, rfl⟩, size⟩ := inductionHypothesis tailCut
            refine ⟨⟨rest, rfl⟩, ?_⟩
            rw [byteSize_cons, size]
            omega
          · simp at cut

theorem takeBytes?_eq_some_iff {text front : Text} {bytes : Nat} :
    takeBytes? text bytes = some front ↔
      (∃ rest, text = front ++ rest) ∧ byteSize front = bytes := by
  constructor
  · exact exists_rest_of_takeBytes?
  · rintro ⟨⟨rest, rfl⟩, rfl⟩
    exact takeBytes?_byteSize_append front rest

/-! ## The part behind a cut -/

theorem dropBytes?_cons {head : Char} {tail : Text} {bytes : Nat} (nonzero : bytes ≠ 0) :
    dropBytes? (head :: tail) bytes =
      if head.utf8Size ≤ bytes then dropBytes? tail (bytes - head.utf8Size) else none := by
  rw [dropBytes?]
  exact nonzero

theorem dropBytes?_byteSize_append (front rest : Text) :
    dropBytes? (front ++ rest) (byteSize front) = some rest := by
  induction front with
  | nil =>
      cases rest <;> rfl
  | cons head tail inductionHypothesis =>
      have nonzero : head.utf8Size + byteSize tail ≠ 0 := by
        have positive := head.utf8Size_pos
        omega
      rw [byteSize_cons, List.cons_append, dropBytes?_cons nonzero,
        if_pos (Nat.le_add_right _ _), Nat.add_sub_cancel_left,
        inductionHypothesis]

/-- The part behind a cut is what is left of the text after as many bytes as the cut is at. -/
theorem exists_front_of_dropBytes? {text rest : Text} {bytes : Nat}
    (cut : dropBytes? text bytes = some rest) :
    ∃ front, text = front ++ rest ∧ byteSize front = bytes := by
  induction text generalizing bytes with
  | nil =>
      cases bytes with
      | zero =>
          simp only [dropBytes?, Option.some.injEq] at cut
          exact ⟨[], cut, rfl⟩
      | succ bytes =>
          simp [dropBytes?] at cut
  | cons head tail inductionHypothesis =>
      cases bytes with
      | zero =>
          simp only [dropBytes?, Option.some.injEq] at cut
          exact ⟨[], cut, rfl⟩
      | succ bytes =>
          rw [dropBytes?_cons (Nat.succ_ne_zero bytes)] at cut
          split at cut
          · next fits =>
            obtain ⟨front, rfl, size⟩ := inductionHypothesis cut
            refine ⟨head :: front, rfl, ?_⟩
            rw [byteSize_cons, size]
            omega
          · simp at cut

theorem dropBytes?_eq_some_iff {text rest : Text} {bytes : Nat} :
    dropBytes? text bytes = some rest ↔
      ∃ front, text = front ++ rest ∧ byteSize front = bytes := by
  constructor
  · exact exists_front_of_dropBytes?
  · rintro ⟨front, rfl, rfl⟩
    exact dropBytes?_byteSize_append front rest

/-! ## Slices -/

/-- A slice is a middle part of the text, and its two offsets are the numbers of bytes before it
and up to its end. -/
theorem slice?_eq_some_iff {text middle : Text} {start stop : Nat} :
    slice? text start stop = some middle ↔
      ∃ front rest, text = front ++ middle ++ rest ∧
        byteSize front = start ∧ byteSize front + byteSize middle = stop := by
  constructor
  · intro sliced
    rw [slice?] at sliced
    split at sliced
    · next ordered =>
      obtain ⟨behind, dropped, taken⟩ := Option.bind_eq_some_iff.mp sliced
      obtain ⟨front, rfl, startSize⟩ := dropBytes?_eq_some_iff.mp dropped
      obtain ⟨⟨rest, rfl⟩, middleSize⟩ := takeBytes?_eq_some_iff.mp taken
      exact ⟨front, rest, (List.append_assoc front middle rest).symm, startSize, by omega⟩
    · simp at sliced
  · rintro ⟨front, rest, rfl, rfl, rfl⟩
    rw [slice?, if_pos (Nat.le_add_right _ _), List.append_assoc,
      dropBytes?_byteSize_append, Option.bind_some, Nat.add_sub_cancel_left,
      takeBytes?_byteSize_append]

/-- Two splits of a text at one byte offset are the same split. -/
theorem append_eq_append_of_byteSize_eq {front front' rest rest' : Text}
    (equality : front ++ rest = front' ++ rest')
    (size : byteSize front = byteSize front') :
    front = front' ∧ rest = rest' := by
  have taken : some front = some front' := by
    rw [← takeBytes?_byteSize_append front rest, equality, size,
      takeBytes?_byteSize_append]
  obtain rfl := Option.some.inj taken
  exact ⟨rfl, List.append_cancel_left equality⟩

/-- Behind a part of the text, a slice of the size of `wanted` is `wanted` exactly when `wanted`
stands there. -/
theorem slice?_byteSize_eq_some_iff {front rest wanted : Text} :
    slice? (front ++ rest) (byteSize front) (byteSize front + byteSize wanted) = some wanted ↔
      wanted <+: rest := by
  rw [slice?_eq_some_iff]
  constructor
  · rintro ⟨front', rest', equality, size, _⟩
    rw [List.append_assoc] at equality
    obtain ⟨_, restEquality⟩ := append_eq_append_of_byteSize_eq equality size.symm
    exact ⟨rest', restEquality.symm⟩
  · rintro ⟨rest', rfl⟩
    exact ⟨front, rest', (List.append_assoc front wanted rest').symm, rfl, rfl⟩

/-- Of two parts at the start of a text, one that is not longer is the start of the other. -/
theorem isPrefix_of_byteSize_le {text shorter longer : Text} (isPrefix : shorter <+: text)
    (isPrefix' : longer <+: text) (size : byteSize shorter ≤ byteSize longer) :
    shorter <+: longer := by
  rcases List.prefix_or_prefix_of_prefix isPrefix isPrefix' with within | ⟨extra, rfl⟩
  · exact within
  · rw [byteSize_append] at size
    cases extra with
    | nil => simp
    | cons head tail =>
        have positive := head.utf8Size_pos
        rw [byteSize_cons] at size
        omega

/-- Replacing a middle part of the text leaves the parts around it. -/
theorem replaceBytes?_byteSize_append (front middle rest inserted : Text) :
    replaceBytes? (front ++ (middle ++ rest)) (byteSize front)
        (byteSize front + byteSize middle) inserted =
      some (front ++ inserted ++ rest) := by
  have before : takeBytes? (front ++ (middle ++ rest)) (byteSize front) = some front :=
    takeBytes?_byteSize_append front (middle ++ rest)
  have after :
      dropBytes? (front ++ (middle ++ rest)) (byteSize front + byteSize middle) = some rest := by
    rw [← byteSize_append, ← List.append_assoc]
    exact dropBytes?_byteSize_append (front ++ middle) rest
  rw [replaceBytes?, before, after]

end SourceAnnotations.Text
