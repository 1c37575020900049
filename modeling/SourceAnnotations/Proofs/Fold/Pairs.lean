import SourceAnnotations.Tree.Node

/-!
# Pairs of region directives

Region directives match like brackets: a directive that begins a region and one that ends it are a
pair when those between them are matched among themselves.  Reading the directives from the first to
the last, the partner of one that ends a region is the latest that is still open.
-/

namespace SourceAnnotations

namespace Node

def beginsRegion (directive : Node) : Bool :=
  Kinds.regionDirectives.contains directive.kind

def endsRegion (directive : Node) : Bool :=
  Kinds.endRegionDirectives.contains directive.kind

/-- A directive that ends a region does not begin one. -/
theorem not_beginsRegion {directive : Node} (ends : directive.endsRegion) :
    directive.beginsRegion = false := by
  simp only [endsRegion, Kinds.endRegionDirectives, List.contains_cons, List.contains_nil,
    Bool.or_false, Bool.or_eq_true, beq_iff_eq] at ends
  rw [beginsRegion]
  rcases ends with kind | kind <;> (rw [kind]; rfl)

end Node

namespace RegionDirectives

/-! ## Matched directives -/

/-- Directives that are all matched among themselves. -/
inductive Matched : List Node → Prop
  | nil : Matched []
  | pair {opening closing : Node} {inner rest : List Node} (begins : opening.beginsRegion)
      (within : Matched inner) (ends : closing.endsRegion) (behind : Matched rest) :
      Matched (opening :: inner ++ closing :: rest)

theorem Matched.append {front back : List Node} (first : Matched front) (second : Matched back) :
    Matched (front ++ back) := by
  induction first with
  | nil => exact second
  | pair begins within ends _ _ inductionHypothesis =>
      simpa only [List.append_assoc, List.cons_append] using
        Matched.pair begins within ends inductionHypothesis

/-- A directive that begins a region and the one that ends it. -/
def Paired (directives : List Node) (opening closing : Node) : Prop :=
  ∃ front inner back, directives = front ++ opening :: inner ++ closing :: back ∧
    opening.beginsRegion ∧ Matched inner ∧ closing.endsRegion

/-! ## Open directives -/

/-- The directives that are still open after one more. -/
def next (opened : List Node) (directive : Node) : List Node :=
  if directive.beginsRegion then directive :: opened else opened.tail

/-- The directives that have begun and not ended, the latest first. -/
def unclosed (directives : List Node) : List Node :=
  directives.foldl next []

theorem unclosed_concat (directives : List Node) (last : Node) :
    unclosed (directives ++ [last]) = next (unclosed directives) last := by
  rw [unclosed, List.foldl_append]
  rfl

theorem next_of_endsRegion {directive : Node} (ends : directive.endsRegion) (opened : List Node) :
    next opened directive = opened.tail := by
  rw [next, Node.not_beginsRegion ends]
  rfl

theorem Matched.foldl_next {inner : List Node} (matched : Matched inner) (opened : List Node) :
    inner.foldl next opened = opened := by
  induction matched generalizing opened with
  | nil => rfl
  | pair begins _ ends _ within behind =>
      rw [List.foldl_append, List.foldl_cons, List.foldl_cons, within, next_of_endsRegion ends,
        behind, next, if_pos begins, List.tail_cons]

/-- The latest open directive is followed by matched ones only. -/
theorem exists_of_unclosed_eq_cons {directives opened : List Node} {opening : Node}
    (all : ∀ directive ∈ directives, directive.beginsRegion ∨ directive.endsRegion)
    (latest : unclosed directives = opening :: opened) :
    ∃ front inner, directives = front ++ opening :: inner ∧ opening.beginsRegion ∧
      Matched inner ∧ unclosed front = opened := by
  -- The induction is on the number of directives, because it goes on before the partner found.
  induction size : directives.length using Nat.strongRecOn
    generalizing directives opening opened with
  | _ length inductionHypothesis =>
      subst size
      rcases List.eq_nil_or_concat directives with rfl | ⟨earlier, last, rfl⟩
      · cases latest
      · rw [List.concat_eq_append] at *
        have allEarlier : ∀ directive ∈ earlier, directive.beginsRegion ∨ directive.endsRegion :=
          fun directive isEarlier => all directive (List.mem_append_left _ isEarlier)
        rw [unclosed_concat] at latest
        by_cases begins : last.beginsRegion
        · rw [next, if_pos begins] at latest
          obtain ⟨rfl, rfl⟩ := List.cons.inj latest
          exact ⟨earlier, [], rfl, begins, .nil, rfl⟩
        · have ends : last.endsRegion :=
            (all last (List.mem_append_right _ List.mem_cons_self)).resolve_left begins
          rw [next_of_endsRegion ends] at latest
          cases stack : unclosed earlier with
          | nil => rw [stack] at latest; cases latest
          | cons partner others =>
              rw [stack, List.tail_cons] at latest
              obtain ⟨front, inner, rfl, beginsPartner, matched, before⟩ :=
                inductionHypothesis earlier.length (by simp) allEarlier stack rfl
              rw [latest] at before
              obtain ⟨start, between, rfl, beginsOpening, matchedBetween, below⟩ :=
                inductionHypothesis front.length (by simp)
                  (fun directive inFront => allEarlier directive (List.mem_append_left _ inFront))
                  before rfl
              refine ⟨start, between ++ (partner :: inner ++ [last]), ?_, beginsOpening, ?_, below⟩
              · simp only [List.append_assoc, List.cons_append]
              · exact matchedBetween.append (.pair beginsPartner matched ends .nil)

/-- The partner of a directive that ends a region is the latest that is open before it. -/
theorem paired_iff {directives : List Node} {opening closing : Node}
    (all : ∀ directive ∈ directives, directive.beginsRegion ∨ directive.endsRegion) :
    Paired directives opening closing ↔
      ∃ front back opened, directives = front ++ closing :: back ∧ closing.endsRegion ∧
        unclosed front = opening :: opened := by
  constructor
  · rintro ⟨front, inner, back, rfl, begins, matched, ends⟩
    refine ⟨front ++ opening :: inner, back, unclosed front, rfl, ends, ?_⟩
    rw [unclosed, List.foldl_append, List.foldl_cons, matched.foldl_next, next, if_pos begins]
    rfl
  · rintro ⟨front, back, opened, rfl, ends, latest⟩
    obtain ⟨start, inner, rfl, begins, matched, _⟩ :=
      exists_of_unclosed_eq_cons
        (fun directive inFront => all directive (List.mem_append_left _ inFront)) latest
    exact ⟨start, inner, back, rfl, begins, matched, ends⟩

/-- One more directive makes a pair with the latest open one when it ends a region. -/
theorem paired_concat_iff {directives : List Node} {last opening closing : Node}
    (all : ∀ directive ∈ directives ++ [last], directive.beginsRegion ∨ directive.endsRegion) :
    Paired (directives ++ [last]) opening closing ↔
      Paired directives opening closing ∨
        (closing = last ∧ last.endsRegion ∧ ∃ opened, unclosed directives = opening :: opened) := by
  have allEarlier : ∀ directive ∈ directives, directive.beginsRegion ∨ directive.endsRegion :=
    fun directive isEarlier => all directive (List.mem_append_left _ isEarlier)
  rw [paired_iff all, paired_iff allEarlier]
  constructor
  · rintro ⟨front, back, opened, split, ends, latest⟩
    rcases List.eq_nil_or_concat back with rfl | ⟨others, final, rfl⟩
    · obtain ⟨rfl, same⟩ := List.append_inj' split rfl
      obtain rfl := List.head_eq_of_cons_eq same
      exact .inr ⟨rfl, ends, opened, latest⟩
    · rw [List.concat_eq_append, ← List.cons_append, ← List.append_assoc] at split
      obtain ⟨rfl, _⟩ := List.append_inj' split rfl
      exact .inl ⟨front, others, opened, rfl, ends, latest⟩
  · rintro (⟨front, back, opened, rfl, ends, latest⟩ | ⟨rfl, ends, opened, latest⟩)
    · exact ⟨front, back ++ [last], opened, by simp, ends, latest⟩
    · exact ⟨directives, [], opened, rfl, ends, latest⟩

end RegionDirectives

end SourceAnnotations
