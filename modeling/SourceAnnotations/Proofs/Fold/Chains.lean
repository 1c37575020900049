import Mathlib.Data.List.Chain
import SourceAnnotations.Fold.Comments
import SourceAnnotations.Proofs.Region.Order
import SourceAnnotations.Proofs.Text.Locations

/-!
# Chains of comments

A line comment goes on from the one before it when it stands on the next line, both are of one kind
and both start their line.  The folds of comments are those of the longest chains made that way and
those of the single comments between delimiters that span lines.  The open run of the scan is the
chain that ends at the comment read last, so a chain is complete exactly when its run is closed.
-/

namespace SourceAnnotations

/-! ## Chains -/

/-- A line comment goes on from another: it begins on the line after the one where the other ends,
is of the same kind, and both start their line. -/
structure Comment.IsContinuedBy (comment next : Comment) : Prop where
  isLine : comment.isBlockDelimited = false
  nextIsLine : next.isBlockDelimited = false
  startsLine : comment.startsLine = true
  nextStartsLine : next.startsLine = true
  sameKind : comment.kind = next.kind
  nextLine : next.region.start.line = comment.region.stop.line + 1

/-- The comment at a place is continued by the one at the next place. -/
def IsLinked (comments : List Comment) (index : Nat) : Prop :=
  ∃ comment next, comments[index]? = some comment ∧ comments[index + 1]? = some next ∧
    comment.IsContinuedBy next

/-- The comment at a place goes on from no other. -/
def BeginsAnew (comments : List Comment) (index : Nat) : Prop :=
  ∀ previous, previous + 1 = index → ¬ IsLinked comments previous

/-- The comments from one place to another form a chain that cannot be made longer. -/
structure IsMaximalChain (comments : List Comment) (first last : Nat) : Prop where
  linked : ∀ index, first ≤ index → index < last → IsLinked comments index
  beginsAnew : BeginsAnew comments first
  isLast : ¬ IsLinked comments last

/-- The folds that comments have, each at the place of the comment that it begins with. -/
inductive HasFoldAt (comments : List Comment) (collapseDocumentation : Bool) : Nat → Fold → Prop
  | chain {first last : Nat} {head final : Comment} (isLong : first < last)
      (maximal : IsMaximalChain comments first last) (atFirst : comments[first]? = some head)
      (atLast : comments[last]? = some final) :
      HasFoldAt comments collapseDocumentation first
        ⟨head.region.cover final.region, .comment, head.placeholder,
          collapseDocumentation && head.isDocumentation⟩
  | delimited {index : Nat} {comment : Comment} (found : comments[index]? = some comment)
      (isBlock : comment.isBlockDelimited = true) (multiLine : comment.region.isMultiLine = true) :
      HasFoldAt comments collapseDocumentation index
        ⟨comment.region, .comment, comment.placeholder,
          collapseDocumentation && comment.isDocumentation⟩

variable {comments : List Comment} {collapse : Bool}

namespace IsLinked

variable {index : Nat} {comment : Comment}

theorem left (linked : IsLinked comments index) (found : comments[index]? = some comment) :
    comment.isBlockDelimited = false ∧ comment.startsLine = true := by
  obtain ⟨first, _, atFirst, _, continued⟩ := linked
  obtain rfl := Option.some.inj (found.symm.trans atFirst)
  exact ⟨continued.isLine, continued.startsLine⟩

theorem right (linked : IsLinked comments index) (found : comments[index + 1]? = some comment) :
    comment.isBlockDelimited = false ∧ comment.startsLine = true := by
  obtain ⟨_, second, _, atSecond, continued⟩ := linked
  obtain rfl := Option.some.inj (found.symm.trans atSecond)
  exact ⟨continued.nextIsLine, continued.nextStartsLine⟩

theorem lt_length (linked : IsLinked comments index) : index + 1 < comments.length := by
  obtain ⟨_, _, _, atSecond, _⟩ := linked
  exact (List.getElem?_eq_some_iff.mp atSecond).1

end IsLinked

/-- Where a maximal chain begins tells where it ends. -/
theorem IsMaximalChain.last_eq {first last last' : Nat}
    (maximal : IsMaximalChain comments first last)
    (maximal' : IsMaximalChain comments first last') (isLong : first < last)
    (isLong' : first < last') : last = last' := by
  rcases Nat.lt_trichotomy last last' with shorter | same | longer
  · exact absurd (maximal'.linked last (Nat.le_of_lt isLong) shorter) maximal.isLast
  · exact same
  · exact absurd (maximal.linked last' (Nat.le_of_lt isLong') longer) maximal'.isLast

section

variable {index : Nat} {comment : Comment}

theorem BeginsAnew.of_isBlockDelimited (found : comments[index]? = some comment)
    (isBlock : comment.isBlockDelimited = true) : BeginsAnew comments index := by
  rintro previous rfl linked
  rw [(linked.right found).1] at isBlock
  cases isBlock

theorem not_isLinked_of_isBlockDelimited (found : comments[index]? = some comment)
    (isBlock : comment.isBlockDelimited = true) : ¬ IsLinked comments index := by
  intro linked
  rw [(linked.left found).1] at isBlock
  cases isBlock

end

namespace HasFoldAt

variable {index : Nat} {fold : Fold}

theorem lt_length (hasFold : HasFoldAt comments collapse index fold) : index < comments.length := by
  cases hasFold with
  | chain _ _ atFirst _ => exact (List.getElem?_eq_some_iff.mp atFirst).1
  | delimited found _ _ => exact (List.getElem?_eq_some_iff.mp found).1

/-- No fold begins at a comment that goes on from the one before it. -/
theorem beginsAnew (hasFold : HasFoldAt comments collapse index fold) :
    BeginsAnew comments index := by
  cases hasFold with
  | chain _ maximal _ _ => exact maximal.beginsAnew
  | delimited found isBlock _ => exact .of_isBlockDelimited found isBlock

/-- The fold at a comment between delimiters is that of the comment alone. -/
theorem of_isBlockDelimited {comment : Comment}
    (hasFold : HasFoldAt comments collapse index fold) (found : comments[index]? = some comment)
    (isBlock : comment.isBlockDelimited = true) :
    comment.region.isMultiLine = true ∧ fold = commentFold collapse comment comment.region := by
  cases hasFold with
  | chain isLong maximal _ _ =>
      exact absurd (maximal.linked index (Nat.le_refl _) isLong)
        (not_isLinked_of_isBlockDelimited found isBlock)
  | delimited found' _ multiLine =>
      obtain rfl := Option.some.inj (found.symm.trans found')
      exact ⟨multiLine, rfl⟩

/-- The fold at the start of a maximal chain is that of the chain. -/
theorem eq_of_isMaximalChain {last : Nat} {head final : Comment}
    (hasFold : HasFoldAt comments collapse index fold) (isLong : index < last)
    (maximal : IsMaximalChain comments index last) (atFirst : comments[index]? = some head)
    (atLast : comments[last]? = some final) :
    fold = commentFold collapse head (head.region.cover final.region) := by
  cases hasFold with
  | chain isLong' maximal' atFirst' atLast' =>
      obtain rfl := Option.some.inj (atFirst.symm.trans atFirst')
      obtain rfl := maximal.last_eq maximal' isLong isLong'
      obtain rfl := Option.some.inj (atLast.symm.trans atLast')
      rfl
  | delimited found isBlock _ =>
      exact absurd (maximal.linked index (Nat.le_refl _) isLong)
        (not_isLinked_of_isBlockDelimited found isBlock)

end HasFoldAt

/-- A line comment that is not continued has no fold. -/
theorem not_hasFoldAt {index : Nat} {comment : Comment} (found : comments[index]? = some comment)
    (isLine : comment.isBlockDelimited = false) (alone : ¬ IsLinked comments index) (fold : Fold) :
    ¬ HasFoldAt comments collapse index fold := by
  intro hasFold
  cases hasFold with
  | chain isLong maximal _ _ => exact alone (maximal.linked index (Nat.le_refl _) isLong)
  | delimited found' isBlock _ =>
      obtain rfl := Option.some.inj (found.symm.trans found')
      rw [isLine] at isBlock
      cases isBlock

/-! ## Folds of a stretch -/

/-- Some folds are those that begin from one place on and before another, in order. -/
def AreFoldsBetween (comments : List Comment) (collapse : Bool) (low high : Nat)
    (folds : List Fold) : Prop :=
  ∃ placed : List (Nat × Fold), placed.map Prod.snd = folds ∧
    placed.Pairwise (fun earlier later => earlier.1 < later.1) ∧
    ∀ index fold, (index, fold) ∈ placed ↔
      (low ≤ index ∧ index < high) ∧ HasFoldAt comments collapse index fold

namespace AreFoldsBetween

variable {low middle high : Nat} {folds folds' : List Fold}

theorem append (first : AreFoldsBetween comments collapse low middle folds)
    (second : AreFoldsBetween comments collapse middle high folds') (ordered : low ≤ middle)
    (ordered' : middle ≤ high) :
    AreFoldsBetween comments collapse low high (folds ++ folds') := by
  obtain ⟨placed, rfl, increasing, isFold⟩ := first
  obtain ⟨placed', rfl, increasing', isFold'⟩ := second
  refine ⟨placed ++ placed', List.map_append, ?_, fun index fold => ?_⟩
  · refine List.pairwise_append.mpr ⟨increasing, increasing', ?_⟩
    intro earlier inFirst later inSecond
    have before := ((isFold earlier.1 earlier.2).mp inFirst).1.2
    have behind := ((isFold' later.1 later.2).mp inSecond).1.1
    exact Nat.lt_of_lt_of_le before behind
  · rw [List.mem_append, isFold, isFold', ← or_and_right]
    refine and_congr_left fun _ => ?_
    omega

theorem nil (none : ∀ index fold, low ≤ index → index < high →
    ¬ HasFoldAt comments collapse index fold) : AreFoldsBetween comments collapse low high [] := by
  refine ⟨[], rfl, .nil, fun index fold => ⟨fun absent => absurd absent List.not_mem_nil, ?_⟩⟩
  rintro ⟨⟨behind, before⟩, hasFold⟩
  exact absurd hasFold (none index fold behind before)

/-- The only fold of a stretch begins where the stretch does. -/
theorem singleton {fold : Fold} (low_lt : low < high)
    (hasFold : HasFoldAt comments collapse low fold)
    (only : ∀ index other, low ≤ index → index < high →
      HasFoldAt comments collapse index other → index = low ∧ other = fold) :
    AreFoldsBetween comments collapse low high [fold] := by
  refine ⟨[(low, fold)], rfl, List.pairwise_singleton _ _, fun index other => ?_⟩
  rw [List.mem_singleton, Prod.mk.injEq]
  constructor
  · rintro ⟨rfl, rfl⟩
    exact ⟨⟨Nat.le_refl _, low_lt⟩, hasFold⟩
  · rintro ⟨⟨behind, before⟩, hasFold⟩
    exact only index other behind before hasFold

end AreFoldsBetween

/-! ## The open run -/

/-- A run is continued by the comment after its last one exactly when that one is linked to it. -/
theorem CommentRun.isContinuedBy_iff {run : CommentRun} {last : Nat} {comment : Comment}
    (atLast : comments[last]? = some run.last) (lastIsLine : run.last.isBlockDelimited = false)
    (lastStartsLine : run.last.startsLine = true) (found : comments[last + 1]? = some comment)
    (isLine : comment.isBlockDelimited = false) :
    run.isContinuedBy comment = true ↔ IsLinked comments last := by
  simp only [CommentRun.isContinuedBy, Bool.and_eq_true, decide_eq_true_eq]
  constructor
  · rintro ⟨⟨startsLine, sameKind⟩, nextLine⟩
    exact ⟨_, _, atLast, found, lastIsLine, isLine, lastStartsLine, startsLine, sameKind, nextLine⟩
  · rintro ⟨_, _, atLast', found', continued⟩
    obtain rfl := Option.some.inj (atLast.symm.trans atLast')
    obtain rfl := Option.some.inj (found.symm.trans found')
    exact ⟨⟨continued.nextStartsLine, continued.sameKind⟩, continued.nextLine⟩

/-- Before a place, the comments from which folds are still to be made begin at another place: they
are none, or they are the open run. -/
inductive IsOpenFrom (comments : List Comment) : Nat → Nat → Option CommentRun → Prop
  | none {position : Nat} (anew : BeginsAnew comments position) :
      IsOpenFrom comments position position none
  | run {first last : Nat} {run : CommentRun} (ordered : first ≤ last)
      (atFirst : comments[first]? = some run.first) (atLast : comments[last]? = some run.last)
      (isLine : run.last.isBlockDelimited = false) (startsLine : run.last.startsLine = true)
      (linked : ∀ index, first ≤ index → index < last → IsLinked comments index)
      (anew : BeginsAnew comments first) (isLong : run.isLong = true ↔ first < last) :
      IsOpenFrom comments (last + 1) first (some run)

namespace IsOpenFrom

variable {position first : Nat} {run : Option CommentRun} {comment : Comment}

theorem le (isOpen : IsOpenFrom comments position first run) : first ≤ position := by
  cases isOpen with
  | none _ => exact Nat.le_refl _
  | run ordered _ _ _ _ _ _ _ => exact Nat.le_succ_of_le ordered

/-- Nothing is open behind a comment that is not continued. -/
theorem of_not_isLinked (alone : ¬ IsLinked comments position) :
    IsOpenFrom comments (position + 1) (position + 1) Option.none :=
  .none fun previous isPrevious => by
    obtain rfl := Nat.succ.inj isPrevious
    exact alone

/-- A run begins at a line comment that starts its line and goes on from no other. -/
theorem starting (found : comments[position]? = some comment)
    (isLine : comment.isBlockDelimited = false) (startsLine : comment.startsLine = true)
    (anew : BeginsAnew comments position) :
    IsOpenFrom comments (position + 1) position (some ⟨comment, comment, false⟩) :=
  .run (Nat.le_refl _) found found isLine startsLine
    (fun _ behind before => absurd before (Nat.not_lt.mpr behind)) anew (by simp)

theorem extend {run : CommentRun} (isOpen : IsOpenFrom comments position first (some run))
    (found : comments[position]? = some comment) (isLine : comment.isBlockDelimited = false)
    (continued : run.isContinuedBy comment = true) :
    IsOpenFrom comments (position + 1) first (some (run.extend comment)) := by
  cases isOpen with
  | @run _ last _ ordered atFirst atLast lastIsLine lastStartsLine linked anew isLong =>
      have step : IsLinked comments last :=
        (CommentRun.isContinuedBy_iff atLast lastIsLine lastStartsLine found isLine).mp continued
      refine .run (Nat.le_succ_of_le ordered) atFirst found isLine (step.right found).2 ?_ anew ?_
      · intro index behind before
        rcases Nat.lt_or_eq_of_le (Nat.le_of_lt_succ before) with earlier | rfl
        · exact linked index behind earlier
        · exact step
      · exact ⟨fun _ => Nat.lt_succ_of_le ordered, fun _ => rfl⟩

/-- A line comment that does not continue the open run goes on from no other. -/
theorem beginsAnew (isOpen : IsOpenFrom comments position first run)
    (found : comments[position]? = some comment) (isLine : comment.isBlockDelimited = false)
    (ends : run.filter (·.isContinuedBy comment) = Option.none) :
    BeginsAnew comments position := by
  cases isOpen with
  | none anew => exact anew
  | run _ _ atLast lastIsLine lastStartsLine _ _ _ =>
      intro previous isPrevious linked
      obtain rfl := Nat.succ.inj isPrevious
      have continued :=
        (CommentRun.isContinuedBy_iff atLast lastIsLine lastStartsLine found isLine).mpr linked
      exact Option.filter_eq_none_iff.mp ends _ rfl continued

/-- The fold of a run behind which a comment begins anew is that of a maximal chain. -/
theorem areFolds_runFold (isOpen : IsOpenFrom comments position first run)
    (ended : BeginsAnew comments position) :
    AreFoldsBetween comments collapse first position (runFold collapse run) := by
  cases isOpen with
  | none _ =>
      exact .nil fun index fold behind before => absurd before (Nat.not_lt.mpr behind)
  | @run first last run ordered atFirst atLast isLine _ linked anew isLong =>
      have maximal : IsMaximalChain comments first last := ⟨linked, anew, ended last rfl⟩
      have atStart : ∀ index fold, first ≤ index → index < last + 1 →
          HasFoldAt comments collapse index fold → index = first := by
        intro index fold behind before hasFold
        rcases Nat.eq_or_lt_of_le behind with same | later
        · exact same.symm
        · obtain ⟨previous, rfl⟩ := Nat.exists_eq_succ_of_ne_zero (Nat.ne_zero_of_lt later)
          have goesOn := linked previous (Nat.le_of_lt_succ later) (Nat.lt_of_succ_lt_succ before)
          exact absurd goesOn (hasFold.beginsAnew previous rfl)
      rw [runFold]
      by_cases long : run.isLong = true
      · rw [if_pos long]
        refine .singleton (Nat.lt_succ_of_le ordered)
          (.chain (isLong.mp long) maximal atFirst atLast) ?_
        intro index other behind before hasFold
        obtain rfl := atStart index other behind before hasFold
        exact ⟨rfl, hasFold.eq_of_isMaximalChain (isLong.mp long) maximal atFirst atLast⟩
      · rw [if_neg long]
        obtain rfl : first = last :=
          (Nat.eq_or_lt_of_le ordered).resolve_right fun longer => long (isLong.mpr longer)
        refine .nil fun index fold behind before hasFold => ?_
        obtain rfl := atStart index fold behind before hasFold
        exact not_hasFoldAt atLast isLine maximal.isLast fold hasFold

end IsOpenFrom

theorem areFolds_blockFold {position : Nat} {comment : Comment}
    (found : comments[position]? = some comment) (isBlock : comment.isBlockDelimited = true) :
    AreFoldsBetween comments collapse position (position + 1) (blockFold collapse comment) := by
  rw [blockFold]
  by_cases multiLine : comment.region.isMultiLine = true
  · rw [if_pos multiLine]
    refine .singleton (Nat.lt_succ_self _) (.delimited found isBlock multiLine) ?_
    intro index other behind before hasFold
    obtain rfl := Nat.le_antisymm (Nat.le_of_lt_succ before) behind
    exact ⟨rfl, (hasFold.of_isBlockDelimited found isBlock).2⟩
  · rw [if_neg multiLine]
    refine .nil fun index fold behind before hasFold => ?_
    obtain rfl := Nat.le_antisymm (Nat.le_of_lt_succ before) behind
    exact multiLine (hasFold.of_isBlockDelimited found isBlock).1

/-- The folds made from a place on are those of the open run and of the comments that follow. -/
theorem areFolds_commentFoldsAfter {rest : List Comment} {position first : Nat}
    {run : Option CommentRun} (isRest : comments.drop position = rest)
    (isOpen : IsOpenFrom comments position first run) :
    AreFoldsBetween comments collapse first (position + rest.length)
      (commentFoldsAfter collapse run rest) := by
  induction rest generalizing position first run with
  | nil =>
      have ended : comments.length ≤ position := List.drop_eq_nil_iff.mp isRest
      rw [commentFoldsAfter]
      refine isOpen.areFolds_runFold fun previous isPrevious linked => ?_
      have within := linked.lt_length
      omega
  | cons comment rest inductionHypothesis =>
      have found : comments[position]? = some comment := by
        rw [← List.head?_drop, isRest, List.head?_cons]
      have isLater : comments.drop (position + 1) = rest := by
        rw [← List.tail_drop, isRest, List.tail_cons]
      have total : position + (comment :: rest).length = position + 1 + rest.length := by
        rw [List.length_cons]
        omega
      rw [commentFoldsAfter, total]
      by_cases isBlock : comment.isBlockDelimited = true
      · rw [if_pos isBlock]
        have ofRun : AreFoldsBetween comments collapse first position (runFold collapse run) :=
          isOpen.areFolds_runFold (.of_isBlockDelimited found isBlock)
        have ofRest := inductionHypothesis isLater
          (.of_not_isLinked (not_isLinked_of_isBlockDelimited found isBlock))
        exact (ofRun.append (areFolds_blockFold found isBlock) isOpen.le (Nat.le_succ _)).append
          ofRest (Nat.le_succ_of_le isOpen.le) (Nat.le_add_right _ _)
      · rw [if_neg isBlock]
        have isLine : comment.isBlockDelimited = false := Bool.eq_false_iff.mpr isBlock
        cases continuing : run.filter (·.isContinuedBy comment) with
        | some known =>
            obtain ⟨rfl, continued⟩ := Option.filter_eq_some_iff.mp continuing
            exact inductionHypothesis isLater (isOpen.extend found isLine continued)
        | none =>
            have anew := isOpen.beginsAnew found isLine continuing
            have ofRun : AreFoldsBetween comments collapse first position (runFold collapse run) :=
              isOpen.areFolds_runFold anew
            refine ofRun.append ?_ isOpen.le (Nat.le_add_right_of_le (Nat.le_succ _))
            rw [CommentRun.starting?]
            by_cases startsLine : comment.startsLine = true
            · rw [if_pos startsLine]
              exact inductionHypothesis isLater (.starting found isLine startsLine anew)
            · rw [if_neg startsLine]
              have alone : ¬ IsLinked comments position :=
                fun linked => startsLine (linked.left found).2
              have here : AreFoldsBetween comments collapse position (position + 1) [] :=
                .nil fun index fold behind before => by
                  obtain rfl := Nat.le_antisymm (Nat.le_of_lt_succ before) behind
                  exact not_hasFoldAt found isLine alone fold
              exact here.append (inductionHypothesis isLater (.of_not_isLinked alone))
                (Nat.le_succ _) (Nat.le_add_right _ _)

/-! ## Comments in the order of the text -/

/-- No comment is reversed, and each ends no later than the next begins. -/
structure InSourceOrder (comments : List Comment) : Prop where
  forward : ∀ comment ∈ comments, comment.region.start.isAtOrBefore comment.region.stop
  apart : comments.IsChain fun comment next =>
    comment.region.stop.isAtOrBefore next.region.start

instance (comments : List Comment) : Decidable (InSourceOrder comments) :=
  decidable_of_iff
    ((∀ comment ∈ comments, comment.region.start.isAtOrBefore comment.region.stop) ∧
      comments.IsChain fun comment next => comment.region.stop.isAtOrBefore next.region.start)
    ⟨fun both => ⟨both.1, both.2⟩, fun ordered => ⟨ordered.forward, ordered.apart⟩⟩

namespace InSourceOrder

variable {index later : Nat} {comment next : Comment}

theorem forward_at (ordered : InSourceOrder comments) (found : comments[index]? = some comment) :
    comment.region.start.isAtOrBefore comment.region.stop :=
  ordered.forward comment (List.mem_of_getElem? found)

/-- A comment ends no later than any later one begins. -/
theorem apart_at (ordered : InSourceOrder comments) (found : comments[index]? = some comment)
    (foundNext : comments[later]? = some next) (before : index < later) :
    comment.region.stop.isAtOrBefore next.region.start := by
  induction later generalizing next with
  | zero => cases before
  | succ middle inductionHypothesis =>
      obtain ⟨within, rfl⟩ := List.getElem?_eq_some_iff.mp foundNext
      have step := List.isChain_iff_getElem.mp ordered.apart middle within
      rcases Nat.lt_or_eq_of_le (Nat.le_of_lt_succ before) with earlier | rfl
      · have foundMiddle := List.getElem?_eq_getElem (Nat.lt_of_succ_lt within)
        have reaches := inductionHypothesis foundMiddle earlier
        have forward := ordered.forward_at foundMiddle
        rw [Location.isAtOrBefore_iff] at reaches forward step ⊢
        omega
      · obtain ⟨_, rfl⟩ := List.getElem?_eq_some_iff.mp found
        exact step

end InSourceOrder

/-- No fold begins at a later comment of a chain. -/
theorem IsMaximalChain.lt_of_hasFoldAt {first last later : Nat} {fold : Fold}
    (maximal : IsMaximalChain comments first last) (before : first < later)
    (hasFold : HasFoldAt comments collapse later fold) : last < later := by
  obtain ⟨previous, rfl⟩ := Nat.exists_eq_succ_of_ne_zero (Nat.ne_zero_of_lt before)
  have notLinked := hasFold.beginsAnew previous rfl
  by_contra within
  exact notLinked (maximal.linked previous (Nat.le_of_lt_succ before) (Nat.lt_of_succ_le
    (Nat.le_of_not_lt within)))

/-- The last comment of a chain begins behind the line on which the first ends. -/
theorem IsMaximalChain.line_lt {first last : Nat} {head final : Comment}
    (maximal : IsMaximalChain comments first last) (ordered : InSourceOrder comments)
    (isLong : first < last) (atFirst : comments[first]? = some head)
    (atLast : comments[last]? = some final) :
    head.region.stop.line < final.region.start.line := by
  obtain ⟨previous, rfl⟩ := Nat.exists_eq_succ_of_ne_zero (Nat.ne_zero_of_lt isLong)
  have reaches := Nat.le_of_lt_succ isLong
  obtain ⟨before, _, atPrevious, atLast', continued⟩ :=
    maximal.linked previous reaches (Nat.lt_succ_self _)
  obtain rfl := Option.some.inj (atLast.symm.trans atLast')
  rw [continued.nextLine, Nat.lt_succ_iff]
  rcases Nat.lt_or_eq_of_le reaches with earlier | rfl
  · have apart := ordered.apart_at atFirst atPrevious earlier
    have forward := ordered.forward_at atPrevious
    rw [Location.isAtOrBefore_iff] at apart forward
    omega
  · obtain rfl := Option.some.inj (atFirst.symm.trans atPrevious)
    exact Nat.le_refl _

/-- The fold at a place reaches from the start of its first comment to the stop of its last, on a
later line, and no fold begins in between. -/
theorem HasFoldAt.exists_last {index : Nat} {fold : Fold}
    (hasFold : HasFoldAt comments collapse index fold) (ordered : InSourceOrder comments) :
    ∃ last head final, comments[index]? = some head ∧ comments[last]? = some final ∧
      fold.region.start = head.region.start ∧ fold.region.stop = final.region.stop ∧
        head.region.start.line < final.region.stop.line ∧
          ∀ later other, index < later → HasFoldAt comments collapse later other →
            last < later := by
  cases hasFold with
  | @chain last head final isLong maximal atFirst atLast =>
      have line := maximal.line_lt ordered isLong atFirst atLast
      have forwardHead := ordered.forward_at atFirst
      have forwardFinal := ordered.forward_at atLast
      rw [Location.isAtOrBefore_iff] at forwardHead forwardFinal
      have startsFirst : head.region.start.isAtOrBefore final.region.start := by
        rw [Location.isAtOrBefore_iff]
        omega
      have stopsLast : ¬ final.region.stop.isAtOrBefore head.region.stop := by
        rw [Location.isAtOrBefore_iff]
        omega
      refine ⟨last, head, final, atFirst, atLast, ?_, ?_, by omega, fun later other before later' =>
        maximal.lt_of_hasFoldAt before later'⟩
      · rw [Region.cover, if_pos startsFirst]
      · rw [Region.cover, if_neg stopsLast]
  | delimited found isBlock multiLine =>
      refine ⟨index, _, _, found, found, rfl, rfl, of_decide_eq_true multiLine, ?_⟩
      exact fun later _ before _ => before

/-- Of two folds the one that begins at an earlier comment ends before the other begins. -/
theorem HasFoldAt.apart {index later : Nat} {fold other : Fold}
    (hasFold : HasFoldAt comments collapse index fold)
    (hasOther : HasFoldAt comments collapse later other) (ordered : InSourceOrder comments)
    (before : index < later) :
    fold.region.IsBefore other.region ∧ fold.region.stop.isAtOrBefore other.region.start := by
  obtain ⟨last, head, final, _, atLast, start, stop, line, notBetween⟩ :=
    hasFold.exists_last ordered
  obtain ⟨_, next, _, atNext, _, start', _⟩ := hasOther.exists_last ordered
  have apart := ordered.apart_at atLast atNext (notBetween later other before hasOther)
  refine ⟨Region.isBefore_of_line_lt ?_, ?_⟩
  · rw [Location.isAtOrBefore_iff] at apart
    rw [start, start']
    omega
  · rw [stop, start']
    exact apart

end SourceAnnotations
