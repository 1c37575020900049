import Mathlib.Data.List.Induction
import SourceAnnotations.Proofs.Fold.Pairs

/-!
# Heights of region directives

The height at a position tells how many more of the directives before it begin regions than end
them.  Directives are matched among themselves when the height is the same behind them as before
them and nowhere lower in between.  So what there is to say about the positions of pairs is
arithmetic of heights: where the height first comes back to that before a directive is its partner,
two pairs are nested or apart, and a directive without a partner can be left out.
-/

namespace SourceAnnotations

namespace RegionDirectives

variable {directives : List Node} {directive opening : Node} {position first second : Nat}

/-! ## Heights -/

def rise (directive : Node) : Int :=
  if directive.beginsRegion then 1 else -1

/-- How many more of the directives before a position begin regions than end them. -/
def height : List Node → Nat → Int
  | [], _ => 0
  | _ :: _, 0 => 0
  | head :: tail, position + 1 => rise head + height tail position

theorem rise_of_begins (begins : directive.beginsRegion) : rise directive = 1 :=
  if_pos begins

theorem rise_of_ends (ends : directive.endsRegion) : rise directive = -1 := by
  rw [rise, Node.not_beginsRegion ends]
  rfl

theorem height_nil (position : Nat) : height [] position = 0 :=
  rfl

theorem height_zero (directives : List Node) : height directives 0 = 0 := by
  cases directives with
  | nil => rfl
  | cons head tail => rfl

theorem height_cons (head : Node) (tail : List Node) (position : Nat) :
    height (head :: tail) (position + 1) = rise head + height tail position :=
  rfl

theorem height_append (front back : List Node) (position : Nat) :
    height (front ++ back) position =
      height front position + height back (position - front.length) := by
  induction front generalizing position with
  | nil => rw [List.nil_append, height_nil, Int.zero_add, List.length_nil, Nat.sub_zero]
  | cons head front inductionHypothesis =>
      cases position with
      | zero => rw [Nat.zero_sub, height_zero, height_zero, height_zero, Int.add_zero]
      | succ position =>
          rw [List.cons_append, height_cons, inductionHypothesis, height_cons, Int.add_assoc,
            List.length_cons, Nat.add_sub_add_right]

theorem height_of_length_le (outside : directives.length ≤ position) :
    height directives position = height directives directives.length := by
  induction directives generalizing position with
  | nil => rfl
  | cons head tail inductionHypothesis =>
      obtain ⟨position, rfl⟩ := Nat.exists_eq_add_of_le' outside
      rw [List.length_cons, ← Nat.add_assoc, height_cons, height_cons,
        inductionHypothesis (Nat.le_add_left _ _)]

theorem height_drop (directives : List Node) (first count : Nat) :
    height (directives.drop first) count =
      height directives (first + count) - height directives first := by
  induction directives generalizing first with
  | nil => rw [List.drop_nil, height_nil, height_nil, height_nil, Int.sub_self]
  | cons head tail inductionHypothesis =>
      cases first with
      | zero => rw [List.drop_zero, height_zero, Int.sub_zero, Nat.zero_add]
      | succ first =>
          rw [List.drop_succ_cons, inductionHypothesis, Nat.add_right_comm, height_cons,
            height_cons]
          omega

theorem height_take (within : position ≤ second) :
    height (directives.take second) position = height directives position := by
  induction directives generalizing position second with
  | nil => rw [List.take_nil]
  | cons head tail inductionHypothesis =>
      cases position with
      | zero => rw [height_zero, height_zero]
      | succ position =>
          obtain ⟨second, rfl⟩ := Nat.exists_eq_add_of_le' within
          rw [← Nat.add_assoc, List.take_succ_cons, height_cons, height_cons,
            inductionHypothesis (Nat.le_add_left _ _)]

theorem height_succ (found : directives[position]? = some directive) :
    height directives (position + 1) = height directives position + rise directive := by
  have single : height (directives.drop position) 1 = rise directive := by
    obtain ⟨within, rfl⟩ := List.getElem?_eq_some_iff.mp found
    rw [List.drop_eq_getElem_cons within, height_cons, height_zero, Int.add_zero]
  rw [height_drop] at single
  omega

theorem height_append_of_le {front : List Node} (within : position ≤ front.length)
    (back : List Node) : height (front ++ back) position = height front position := by
  rw [height_append, Nat.sub_eq_zero_of_le within, height_zero, Int.add_zero]

theorem height_nonneg_of_append {front back : List Node}
    (nonneg : ∀ position, 0 ≤ height (front ++ back) position) (position : Nat) :
    0 ≤ height front position := by
  rcases Nat.le_total position front.length with within | outside
  · rw [← height_append_of_le within back]
    exact nonneg position
  · rw [height_of_length_le outside, ← height_append_of_le (Nat.le_refl _) back]
    exact nonneg front.length

/-! ## Matched directives by their heights -/

theorem Matched.height_length {inner : List Node} (matched : Matched inner) :
    height inner inner.length = 0 := by
  induction matched with
  | nil => rfl
  | @pair opening closing inner rest begins _ ends _ within behind =>
      have total : (opening :: inner ++ closing :: rest).length =
          inner.length + (rest.length + 1) + 1 := by
        rw [List.cons_append, List.length_cons, List.length_append, List.length_cons]
      rw [total, List.cons_append, height_cons, height_append, Nat.add_sub_cancel_left,
        height_of_length_le (Nat.le_add_right _ _), within, height_cons, behind,
        rise_of_begins begins, rise_of_ends ends]
      rfl

theorem Matched.height_nonneg {inner : List Node} (matched : Matched inner) (position : Nat) :
    0 ≤ height inner position := by
  induction matched generalizing position with
  | nil => exact Int.le_refl 0
  | @pair opening closing inner rest begins matchedInner ends _ within behind =>
      cases position with
      | zero => exact Int.le_refl 0
      | succ position =>
          rw [List.cons_append, height_cons, height_append, rise_of_begins begins]
          have inInner := within position
          cases distance : position - inner.length with
          | zero =>
              rw [height_zero]
              omega
          | succ further =>
              have level : height inner position = 0 := by
                rw [height_of_length_le (by omega), matchedInner.height_length]
              have inRest := behind further
              rw [height_cons, rise_of_ends ends]
              omega

/-- Where the height is nowhere negative it counts the open directives. -/
theorem length_unclosed
    (all : ∀ directive ∈ directives, directive.beginsRegion ∨ directive.endsRegion)
    (nonneg : ∀ position, 0 ≤ height directives position) :
    ((unclosed directives).length : Int) = height directives directives.length := by
  induction directives using List.reverseRecOn with
  | nil => rfl
  | append_singleton earlier last inductionHypothesis =>
      have counted := inductionHypothesis
        (fun directive found => all directive (List.mem_append_left _ found))
        (height_nonneg_of_append nonneg)
      have atLast : (earlier ++ [last])[earlier.length]? = some last := List.getElem?_concat_length
      have total := height_succ atLast
      have reaches := nonneg (earlier.length + 1)
      rw [height_append_of_le (Nat.le_refl _)] at total
      rw [List.length_append, List.length_singleton, unclosed_concat]
      rcases all last (List.mem_append_right _ List.mem_cons_self) with begins | ends
      · rw [rise_of_begins begins] at total
        rw [next, if_pos begins, List.length_cons]
        omega
      · rw [rise_of_ends ends] at total
        rw [next_of_endsRegion ends, List.length_tail]
        omega

/-- Behind a directive that begins a region those are matched whose height is nowhere negative and
comes back to zero. -/
theorem matched_of_height (begins : opening.beginsRegion)
    (all : ∀ directive ∈ directives, directive.beginsRegion ∨ directive.endsRegion)
    (level : height directives directives.length = 0)
    (nonneg : ∀ position, 0 ≤ height directives position) : Matched directives := by
  have allWhole : ∀ directive ∈ opening :: directives,
      directive.beginsRegion ∨ directive.endsRegion :=
    List.forall_mem_cons.mpr ⟨.inl begins, all⟩
  have positive (position : Nat) : 1 ≤ height (opening :: directives) (position + 1) := by
    have below := nonneg position
    rw [height_cons, rise_of_begins begins]
    omega
  have nonnegWhole (position : Nat) : 0 ≤ height (opening :: directives) position := by
    cases position with
    | zero => exact Int.le_refl 0
    | succ position => exact Int.le_trans (by decide) (positive position)
  have single : (unclosed (opening :: directives)).length = 1 := by
    have counted := length_unclosed allWhole nonnegWhole
    rw [List.length_cons, height_cons, level, rise_of_begins begins] at counted
    omega
  obtain ⟨latest, isLatest⟩ := List.length_eq_one_iff.mp single
  obtain ⟨front, inner, split, _, matched, before⟩ := exists_of_unclosed_eq_cons allWhole isLatest
  cases front with
  | nil =>
      obtain ⟨_, rfl⟩ := List.cons.inj split
      exact matched
  | cons head front =>
      -- The heights are positive from the first directive on, so something would be open.
      rw [split] at nonnegWhole
      have counted := length_unclosed
        (fun directive found => allWhole directive (split ▸ List.mem_append_left _ found))
        (height_nonneg_of_append nonnegWhole)
      have reaches : 1 ≤ height (opening :: directives) (head :: front).length :=
        positive front.length
      rw [split, height_append_of_le (Nat.le_refl _)] at reaches
      rw [before, List.length_nil] at counted
      omega

/-! ## Positions of pairs -/

/-- Two positions have directives that begin and end a region, and those strictly between them are
matched among themselves. -/
@[mk_iff]
structure PairedAt (directives : List Node) (first second : Nat) : Prop where
  ordered : first < second
  begins : ∃ opening, directives[first]? = some opening ∧ opening.beginsRegion
  ends : ∃ closing, directives[second]? = some closing ∧ closing.endsRegion
  between : Matched ((directives.take second).drop (first + 1))

theorem height_between {count : Nat} (within : first + count ≤ second) :
    height ((directives.take second).drop first) count =
      height directives (first + count) - height directives first := by
  rw [height_drop, height_take within, height_take (Nat.le_trans (Nat.le_add_right _ _) within)]

theorem height_length_between (ordered : first < second) (within : second ≤ directives.length) :
    height ((directives.take second).drop (first + 1))
        ((directives.take second).drop (first + 1)).length =
      height directives second - height directives (first + 1) := by
  rw [List.length_drop, List.length_take, Nat.min_eq_left within, height_between (by omega),
    Nat.add_sub_cancel' (Nat.succ_le_of_lt ordered)]

namespace PairedAt

variable (pair : PairedAt directives first second)
include pair

theorem lt_length : second < directives.length := by
  obtain ⟨_, found, _⟩ := pair.ends
  exact (List.getElem?_eq_some_iff.mp found).1

theorem height_first : height directives (first + 1) = height directives first + 1 := by
  obtain ⟨_, found, begins⟩ := pair.begins
  rw [height_succ found, rise_of_begins begins]

theorem height_second : height directives (second + 1) = height directives second - 1 := by
  obtain ⟨_, found, ends⟩ := pair.ends
  rw [height_succ found, rise_of_ends ends]
  rfl

/-- The height comes back to what it is behind the first directive. -/
theorem height_eq : height directives second = height directives (first + 1) := by
  have level := pair.between.height_length
  rw [height_length_between pair.ordered (Nat.le_of_lt pair.lt_length)] at level
  omega

/-- It is not lower in between. -/
theorem height_le (behind : first < position) (upTo : position ≤ second) :
    height directives (first + 1) ≤ height directives position := by
  have above := pair.between.height_nonneg (position - (first + 1))
  rw [height_between (by omega), Nat.add_sub_cancel' (Nat.succ_le_of_lt behind)] at above
  omega

end PairedAt

/-! ## Two pairs -/

/-- Two pairs with a common directive are one. -/
theorem PairedAt.eq_of_first {other : Nat} (pair : PairedAt directives first second)
    (pair' : PairedAt directives first other) : second = other := by
  have noneLower {second other : Nat} (pair : PairedAt directives first second)
      (pair' : PairedAt directives first other) : ¬ second < other := by
    intro before
    have high : height directives (first + 1) ≤ height directives (second + 1) :=
      pair'.height_le (Nat.lt_succ_of_lt pair.ordered) before
    have down := pair.height_second
    have level := pair.height_eq
    omega
  exact Nat.le_antisymm (Nat.le_of_not_lt (noneLower pair' pair))
    (Nat.le_of_not_lt (noneLower pair pair'))

/-- Of two pairs with different first directives the one that begins later lies within the other or
behind it. -/
theorem PairedAt.within_or_behind {first' second' : Nat} (pair : PairedAt directives first second)
    (pair' : PairedAt directives first' second') (before : first < first') :
    second < first' ∨ second' < second := by
  rcases Nat.lt_or_ge second first' with apart | reaches
  · exact .inl apart
  · refine .inr (Nat.lt_of_not_le fun crosses => ?_)
    -- The later pair begins on a height that the earlier one has at its end, so it cannot go on
    -- behind that end.
    have low := pair.height_le before reaches
    have level := pair.height_eq
    have down := pair.height_second
    have up := pair'.height_first
    rcases Nat.lt_or_eq_of_le reaches with behind | rfl
    · have high := pair'.height_le behind crosses
      omega
    · omega

/-- Two pairs are one, or apart, or one lies between the directives of the other. -/
theorem PairedAt.nested_or_apart {first' second' : Nat} (pair : PairedAt directives first second)
    (pair' : PairedAt directives first' second') :
    (first = first' ∧ second = second') ∨ (second < first' ∨ second' < first) ∨
      (first < first' ∧ second' < second) ∨ (first' < first ∧ second < second') := by
  rcases Nat.lt_trichotomy first first' with before | rfl | behind
  · rcases pair.within_or_behind pair' before with apart | within
    · exact .inr (.inl (.inl apart))
    · exact .inr (.inr (.inl ⟨before, within⟩))
  · exact .inl ⟨rfl, pair.eq_of_first pair'⟩
  · rcases pair'.within_or_behind pair behind with apart | within
    · exact .inr (.inl (.inr apart))
    · exact .inr (.inr (.inr ⟨behind, within⟩))

/-! ## Partners -/

section

variable (all : ∀ directive ∈ directives, directive.beginsRegion ∨ directive.endsRegion)
include all

theorem pairedAt_of_height {closing : Node} (ordered : first < second)
    (atFirst : directives[first]? = some opening) (begins : opening.beginsRegion)
    (atSecond : directives[second]? = some closing) (ends : closing.endsRegion)
    (level : height directives second = height directives (first + 1))
    (above : ∀ position, first < position → position ≤ second →
      height directives (first + 1) ≤ height directives position) :
    PairedAt directives first second := by
  have within : second < directives.length := (List.getElem?_eq_some_iff.mp atSecond).1
  have levelBetween := height_length_between ordered (Nat.le_of_lt within)
  rw [level, Int.sub_self] at levelBetween
  refine ⟨ordered, ⟨opening, atFirst, begins⟩, ⟨closing, atSecond, ends⟩, ?_⟩
  refine matched_of_height begins (fun directive found => ?_) levelBetween fun count => ?_
  · exact all directive (List.mem_of_mem_take (List.mem_of_mem_drop found))
  · rcases Nat.le_total count ((directives.take second).drop (first + 1)).length with
      inside | outside
    · rw [List.length_drop, List.length_take] at inside
      have higher := above (first + 1 + count) (by omega) (by omega)
      rw [height_between (by omega)]
      omega
    · exact Int.le_of_eq ((height_of_length_le outside).trans levelBetween).symm

/-- A directive that begins a region has a partner when the height comes down again. -/
theorem exists_pairedAt_of_begins (found : directives[first]? = some directive)
    (begins : directive.beginsRegion) (behind : first < position)
    (within : position ≤ directives.length)
    (low : height directives position ≤ height directives first) :
    ∃ partner, PairedAt directives first partner := by
  induction position using Nat.strongRecOn with
  | _ position inductionHypothesis =>
      by_cases earlier : ∃ middle, first < middle ∧ middle < position ∧
          height directives middle ≤ height directives first
      · obtain ⟨middle, behindFirst, before, lowMiddle⟩ := earlier
        exact inductionHypothesis middle before behindFirst (by omega) lowMiddle
      · push Not at earlier
        -- The directive before the position is the first to bring the height down.
        obtain ⟨last, rfl⟩ := Nat.exists_eq_add_one_of_ne_zero (Nat.ne_zero_of_lt behind)
        have up := height_succ found
        rw [rise_of_begins begins] at up
        have apart : first ≠ last := by
          rintro rfl
          omega
        obtain ⟨closing, atLast⟩ : ∃ closing, directives[last]? = some closing :=
          ⟨_, List.getElem?_eq_getElem within⟩
        have high := earlier last (by omega) (Nat.lt_succ_self _)
        have step := height_succ atLast
        rcases all closing (List.mem_of_getElem? atLast) with beginsLast | endsLast
        · rw [rise_of_begins beginsLast] at step
          omega
        · rw [rise_of_ends endsLast] at step
          refine ⟨last, pairedAt_of_height all (by omega) found begins atLast endsLast (by omega)
            fun middle behindFirst upTo => ?_⟩
          have higher := earlier middle behindFirst (by omega)
          omega

/-- A directive that ends a region has a partner when the height was as low before. -/
theorem exists_pairedAt_of_ends (found : directives[second]? = some directive)
    (ends : directive.endsRegion) (before : position ≤ second)
    (low : height directives position ≤ height directives (second + 1)) :
    ∃ partner, PairedAt directives partner second := by
  induction distance : second - position using Nat.strongRecOn generalizing position with
  | _ distance inductionHypothesis =>
      subst distance
      by_cases later : ∃ middle, position < middle ∧ middle ≤ second ∧
          height directives middle ≤ height directives (second + 1)
      · obtain ⟨middle, behind, upTo, lowMiddle⟩ := later
        exact inductionHypothesis (second - middle) (by omega) upTo lowMiddle rfl
      · push Not at later
        have down := height_succ found
        rw [rise_of_ends ends] at down
        have apart : position ≠ second := by
          rintro rfl
          omega
        have within : second < directives.length := (List.getElem?_eq_some_iff.mp found).1
        obtain ⟨opening, atPosition⟩ : ∃ opening, directives[position]? = some opening :=
          ⟨_, List.getElem?_eq_getElem (by omega)⟩
        have high := later (position + 1) (Nat.lt_succ_self _) (by omega)
        have step := height_succ atPosition
        rcases all opening (List.mem_of_getElem? atPosition) with beginsThere | endsThere
        · rw [rise_of_begins beginsThere] at step
          refine ⟨position, pairedAt_of_height all (by omega) atPosition beginsThere found ends
            (by omega) fun middle behind upTo => ?_⟩
          have higher := later middle behind upTo
          omega
        · rw [rise_of_ends endsThere] at step
          omega

end

/-! ## The last directive -/

theorem pairedAt_append_iff {front : List Node} (within : second < front.length)
    (back : List Node) : PairedAt (front ++ back) first second ↔ PairedAt front first second := by
  by_cases ordered : first < second
  · rw [pairedAt_iff, pairedAt_iff, List.getElem?_append_left within,
      List.getElem?_append_left (Nat.lt_trans ordered within),
      List.take_append_of_le_length (Nat.le_of_lt within)]
  · exact iff_of_false (fun pair => ordered pair.ordered) fun pair => ordered pair.ordered

/-- A directive that ends a region makes a pair with the one behind which all are matched. -/
theorem pairedAt_concat_of_matched {front inner : List Node} {closing : Node}
    (begins : opening.beginsRegion) (matched : Matched inner) (ends : closing.endsRegion) :
    PairedAt (front ++ opening :: inner ++ [closing]) front.length
      (front ++ opening :: inner).length where
  ordered := by
    rw [List.length_append, List.length_cons]
    omega
  begins := ⟨opening, by simp, begins⟩
  ends := ⟨closing, List.getElem?_concat_length, ends⟩
  between := by
    rw [List.take_left, List.drop_length_add_append]
    exact matched

/-- A directive that has a partner before it finds one open. -/
theorem exists_unclosed_of_pairedAt {last : Node}
    (pair : PairedAt (directives ++ [last]) first directives.length) :
    last.endsRegion ∧ ∃ opening opened, unclosed directives = opening :: opened := by
  obtain ⟨opening, atFirst, begins⟩ := pair.begins
  obtain ⟨closing, atLast, ends⟩ := pair.ends
  have matched := pair.between
  rw [List.getElem?_append_left pair.ordered] at atFirst
  rw [List.getElem?_concat_length, Option.some.injEq] at atLast
  rw [List.take_left] at matched
  obtain ⟨within, rfl⟩ := List.getElem?_eq_some_iff.mp atFirst
  refine ⟨atLast ▸ ends, directives[first], unclosed (directives.take first), ?_⟩
  conv_lhs => rw [← List.take_append_drop first directives, List.drop_eq_getElem_cons within]
  rw [unclosed, List.foldl_append, List.foldl_cons, matched.foldl_next, next, if_pos begins,
    unclosed]

/-- A directive makes no pair when it begins a region or none is open. -/
theorem pairedAt_concat_iff_of_idle {last : Node}
    (idle : ¬ (last.endsRegion ∧ ∃ opening opened, unclosed directives = opening :: opened)) :
    PairedAt (directives ++ [last]) first second ↔ PairedAt directives first second := by
  rcases Nat.lt_trichotomy second directives.length with within | rfl | outside
  · exact pairedAt_append_iff within [last]
  · exact iff_of_false (fun pair => idle (exists_unclosed_of_pairedAt pair)) fun pair =>
      absurd pair.lt_length (Nat.lt_irrefl _)
  · refine iff_of_false (fun pair => ?_) fun pair => Nat.lt_asymm outside pair.lt_length
    have within := pair.lt_length
    rw [List.length_append, List.length_singleton] at within
    omega

/-- A directive that ends a region makes one pair, with the latest open one. -/
theorem exists_pairedAt_concat_iff {last : Node} {opened : List Node}
    (all : ∀ directive ∈ directives, directive.beginsRegion ∨ directive.endsRegion)
    (latest : unclosed directives = opening :: opened) (ends : last.endsRegion) :
    ∃ position, directives[position]? = some opening ∧
      ∀ first second, PairedAt (directives ++ [last]) first second ↔
        PairedAt directives first second ∨ (first = position ∧ second = directives.length) := by
  obtain ⟨front, inner, rfl, begins, matched, _⟩ := exists_of_unclosed_eq_cons all latest
  have made : PairedAt (front ++ opening :: inner ++ [last]) front.length
      (front ++ opening :: inner).length := pairedAt_concat_of_matched begins matched ends
  refine ⟨front.length, by simp, fun first second => ?_⟩
  constructor
  · intro pair
    have within := pair.lt_length
    rw [List.length_append, List.length_singleton] at within
    rcases Nat.lt_or_eq_of_le (Nat.le_of_lt_succ within) with earlier | rfl
    · exact .inl ((pairedAt_append_iff earlier [last]).mp pair)
    · -- Two pairs that end together begin together.
      refine .inr ⟨?_, rfl⟩
      have apart := pair.nested_or_apart made
      have ordered := pair.ordered
      have ordered' := made.ordered
      omega
  · rintro (pair | ⟨rfl, rfl⟩)
    · exact (pairedAt_append_iff pair.lt_length [last]).mpr pair
    · exact made

/-! ## A directive without a partner -/

/-- A position among directives before one of them was left out. -/
def skip (removed position : Nat) : Nat :=
  if position < removed then position else position + 1

section

variable {front back : List Node}

theorem getElem?_skip (front back : List Node) (directive : Node) (position : Nat) :
    (front ++ directive :: back)[skip front.length position]? = (front ++ back)[position]? := by
  rw [skip]
  split
  · next before => rw [List.getElem?_append_left before, List.getElem?_append_left before]
  · next behind =>
    have reaches := Nat.le_of_not_lt behind
    rw [List.getElem?_append_right reaches, List.getElem?_append_right (Nat.le_succ_of_le reaches),
      Nat.succ_sub reaches, List.getElem?_cons_succ]

/-- Up to a directive that is left out the heights stay as they are. -/
theorem height_skip_of_le (upTo : position ≤ front.length) (directive : Node) :
    height (front ++ directive :: back) position = height (front ++ back) position := by
  rw [height_append_of_le upTo, height_append_of_le upTo]

/-- Behind it they change by its own step. -/
theorem height_skip_of_ge (behind : front.length ≤ position) (directive : Node) :
    height (front ++ directive :: back) (position + 1) =
      height (front ++ back) position + rise directive := by
  rw [height_append, height_append, height_of_length_le behind, Nat.succ_sub behind, height_cons,
    height_of_length_le (Nat.le_succ_of_le behind)]
  omega

theorem skip_lt_skip_iff {removed : Nat} :
    skip removed first < skip removed second ↔ first < second := by
  rw [skip, skip]
  split <;> split <;> omega

/-- What stands between two directives that are both on one side of the one left out. -/
theorem between_skip (ordered : first < second)
    (outside : second < front.length ∨ front.length ≤ first) :
    ((front ++ directive :: back).take (skip front.length second)).drop
        (skip front.length first + 1) =
      ((front ++ back).take second).drop (first + 1) := by
  rcases outside with before | behind
  · rw [skip, skip, if_pos before, if_pos (Nat.lt_trans ordered before),
      List.take_append_of_le_length (Nat.le_of_lt before),
      List.take_append_of_le_length (Nat.le_of_lt before)]
  · obtain ⟨low, rfl⟩ := Nat.exists_eq_add_of_le behind
    obtain ⟨high, rfl⟩ := Nat.exists_eq_add_of_le (Nat.le_trans behind (Nat.le_of_lt ordered))
    rw [skip, skip, if_neg (Nat.not_lt.mpr behind),
      if_neg (Nat.not_lt.mpr (Nat.le_add_right _ _)), Nat.add_assoc, Nat.add_assoc, Nat.add_assoc,
      List.take_length_add_append, List.take_length_add_append, List.take_succ_cons,
      Nat.add_assoc, List.drop_length_add_append, List.drop_length_add_append]
    exact List.drop_succ_cons

variable (all : ∀ other ∈ front ++ directive :: back, other.beginsRegion ∨ other.endsRegion)
  (unpaired : ∀ partner, ¬ PairedAt (front ++ directive :: back) front.length partner ∧
    ¬ PairedAt (front ++ directive :: back) partner front.length)
include all unpaired

/-- A directive without a partner makes a step that the heights never undo: those behind it stay
above it if it begins a region, and those before it stay above it if it ends one. -/
theorem height_of_unpaired :
    (rise directive = 1 ∧ ∀ position, front.length < position →
        position ≤ (front ++ directive :: back).length →
          height (front ++ directive :: back) front.length <
            height (front ++ directive :: back) position) ∨
      (rise directive = -1 ∧ ∀ position ≤ front.length,
        height (front ++ directive :: back) (front.length + 1) <
          height (front ++ directive :: back) position) := by
  have found : (front ++ directive :: back)[front.length]? = some directive := by simp
  rcases all directive (List.mem_append_right _ List.mem_cons_self) with begins | ends
  · refine .inl ⟨rise_of_begins begins, fun position behind within =>
      Int.lt_of_not_ge fun low => ?_⟩
    obtain ⟨partner, pair⟩ := exists_pairedAt_of_begins all found begins behind within low
    exact (unpaired partner).1 pair
  · refine .inr ⟨rise_of_ends ends, fun position before => Int.lt_of_not_ge fun low => ?_⟩
    obtain ⟨partner, pair⟩ := exists_pairedAt_of_ends all found ends before low
    exact (unpaired partner).2 pair

/-- No pair has one on either side of it, whether it is there or not. -/
theorem not_pairedAt_around (before : first < front.length) (behind : front.length ≤ second) :
    ¬ PairedAt (front ++ back) first second ∧
      ¬ PairedAt (front ++ directive :: back) first (second + 1) := by
  have size : (front ++ directive :: back).length = (front ++ back).length + 1 := by
    rw [List.length_append, List.length_append, List.length_cons, Nat.add_assoc]
  constructor
  · intro pair
    have within := pair.lt_length
    have level := pair.height_eq
    have up := pair.height_first
    have down := pair.height_second
    have high := pair.height_le before behind
    rcases height_of_unpaired all unpaired with ⟨step, above⟩ | ⟨step, above⟩
    · have higher := above (second + 1 + 1) (by omega) (by omega)
      rw [height_skip_of_ge (by omega), step, height_skip_of_le (Nat.le_refl _)] at higher
      omega
    · have higher := above first (Nat.le_of_lt before)
      rw [height_skip_of_ge (Nat.le_refl _), step, height_skip_of_le (Nat.le_of_lt before)]
        at higher
      omega
  · intro pair
    have within := pair.lt_length
    have level := pair.height_eq
    rcases height_of_unpaired all unpaired with ⟨_, above⟩ | ⟨_, above⟩
    · have high := pair.height_le before (by omega)
      have higher := above (second + 1) (by omega) (by omega)
      omega
    · have high : height (front ++ directive :: back) (first + 1) ≤
          height (front ++ directive :: back) (front.length + 1) :=
        pair.height_le (by omega) (by omega)
      have higher := above (first + 1) before
      omega

/-- A directive without a partner does not matter to the pairs of the others. -/
theorem pairedAt_skip_iff (first second : Nat) :
    PairedAt (front ++ back) first second ↔
      PairedAt (front ++ directive :: back) (skip front.length first)
        (skip front.length second) := by
  by_cases ordered : first < second
  · by_cases outside : second < front.length ∨ front.length ≤ first
    · rw [pairedAt_iff, pairedAt_iff, getElem?_skip, getElem?_skip, skip_lt_skip_iff,
        between_skip ordered outside]
    · obtain ⟨notBefore, notBehind⟩ := not_or.mp outside
      have apart := not_pairedAt_around all unpaired (Nat.lt_of_not_le notBehind)
        (Nat.le_of_not_lt notBefore)
      rw [skip, skip, if_pos (Nat.lt_of_not_le notBehind), if_neg notBefore]
      exact iff_of_false apart.1 apart.2
  · refine iff_of_false (fun pair => ordered pair.ordered) fun pair => ordered ?_
    exact skip_lt_skip_iff.mp pair.ordered

end

end RegionDirectives

end SourceAnnotations
