import SourceAnnotations.Fold.Imports

/-!
# First runs of using directives

The members of a scope fall into parts between the file-scoped namespaces among them.  Each part has
its first run: the using directives that it begins with.  The folds of a scope are those of the
first runs with at least two directives.
-/

namespace SourceAnnotations

namespace Node

def isFileScopedNamespace (member : Node) : Bool :=
  member.kind = Kinds.fileScopedNamespace

/-- The parts of a scope's members between the file-scoped namespaces among them. -/
def scopeParts (scope : Node) : List (List Node) :=
  scope.scopeMembers.splitOnP isFileScopedNamespace

end Node

/-- The fold from the start of one directive to the end of another. -/
def SyntaxTree.importsFold (tree : SyntaxTree) (first last : Node) : Fold :=
  (Fold.plain (tree.index.region first.row.startByte last.row.endByte) .imports).withName
    "using ..."

namespace UsingRun

/-- The run of some directives, if there are any. -/
def ofDirectives? : List Node → Option UsingRun
  | [] => none
  | first :: rest => some ⟨first, rest.getLast?.getD first, !rest.isEmpty⟩

theorem ofDirectives?_concat (taken : List Node) (directive : Node) :
    ofDirectives? (taken ++ [directive]) = some (extend (ofDirectives? taken) directive) := by
  cases taken with
  | nil => rfl
  | cons first rest => simp [ofDirectives?, extend]

/-- The first run of a part, if the part begins with a directive. -/
def ofPart? (part : List Node) : Option UsingRun :=
  ofDirectives? (part.takeWhile Node.isUsing)

/-- With directives taken, the runs are the one that they begin and those of the later parts; once
the first run has ended, only those of the later parts. -/
theorem usingRuns_eq {members : List Node} {part : List Node} {others : List (List Node)}
    (split : members.splitOnP Node.isFileScopedNamespace = part :: others) :
    (∀ taken, usingRuns (ofDirectives? taken) true members =
        (ofDirectives? (taken ++ part.takeWhile Node.isUsing)).toList ++
          others.filterMap ofPart?) ∧
      usingRuns none false members = others.filterMap ofPart? := by
  induction members generalizing part others with
  | nil =>
      cases split
      simp [usingRuns]
  | cons member rest inductionHypothesis =>
      obtain ⟨next, later, splitRest⟩ :=
        List.exists_cons_of_ne_nil (List.splitOnP_ne_nil Node.isFileScopedNamespace rest)
      obtain ⟨looking, ended⟩ := inductionHypothesis splitRest
      have fresh : usingRuns none true rest = (next :: later).filterMap ofPart? := by
        have begun := looking []
        rw [ofDirectives?] at begun
        rw [begun, List.filterMap_cons, List.nil_append, ofPart?]
        cases ofDirectives? (next.takeWhile Node.isUsing) <;> rfl
      rw [List.splitOnP_cons_eq_if_modifyHead, splitRest] at split
      by_cases separates : member.kind = Kinds.fileScopedNamespace
      · rw [if_pos (show member.isFileScopedNamespace from decide_eq_true separates)] at split
        cases split
        simp only [usingRuns, separates, if_true, fresh, List.takeWhile_nil, List.append_nil,
          Option.toList_none, List.nil_append, implies_true, and_self]
      · rw [if_neg (by simpa [Node.isFileScopedNamespace] using separates)] at split
        cases split
        by_cases isUsing : member.isUsing
        · refine ⟨fun taken => ?_, ?_⟩
          · have extended := looking (taken ++ [member])
            rw [ofDirectives?_concat, List.append_assoc] at extended
            simpa [usingRuns, separates, isUsing] using extended
          · simpa [usingRuns, separates] using ended
        · simp [usingRuns, separates, isUsing, ended]

/-- Once a run has ended, members up to the next file-scoped namespace do not count. -/
theorem usingRuns_append_of_ended {run : Option UsingRun} {late back : List Node}
    (sameScope : ∀ member ∈ late, member.isFileScopedNamespace = false) :
    usingRuns run false (late ++ back) = usingRuns run false back := by
  induction late with
  | nil => rfl
  | cons member rest inductionHypothesis =>
      obtain ⟨here, sameScope⟩ := List.forall_mem_cons.mp sameScope
      rw [List.cons_append, usingRuns, if_neg (of_decide_eq_false here), Bool.not_false, if_pos rfl]
      exact inductionHypothesis sameScope

/-- Members do not count behind one that ends the run of their part, whatever comes before it. -/
theorem usingRuns_append_of_late {front late back : List Node} {other : Node}
    (isOther : other.isUsing = false) (inScope : other.isFileScopedNamespace = false)
    (sameScope : ∀ member ∈ late, member.isFileScopedNamespace = false)
    (run : Option UsingRun) (isLooking : Bool) :
    usingRuns run isLooking (front ++ other :: (late ++ back)) =
      usingRuns run isLooking (front ++ other :: back) := by
  induction front generalizing run isLooking with
  | nil =>
      have ended (run : Option UsingRun) :
          usingRuns run false (late ++ back) = usingRuns run false back :=
        usingRuns_append_of_ended sameScope
      simp only [List.nil_append, usingRuns, if_neg (of_decide_eq_false inScope), isOther, ended]
      rfl
  | cons member rest inductionHypothesis =>
      simp only [List.cons_append, usingRuns, inductionHypothesis]

end UsingRun

/-- The folds of a scope are those of the first runs of its parts. -/
theorem SyntaxTree.usingFolds_eq (tree : SyntaxTree) (scope : Node) :
    tree.usingFolds scope =
      scope.scopeParts.filterMap fun part =>
        (UsingRun.ofPart? part).bind (UsingRun.fold? tree) := by
  obtain ⟨part, others, split⟩ :=
    List.exists_cons_of_ne_nil
      (List.splitOnP_ne_nil Node.isFileScopedNamespace scope.scopeMembers)
  have runs := (UsingRun.usingRuns_eq split).1 []
  rw [UsingRun.ofDirectives?, List.nil_append] at runs
  rw [usingFolds, runs, Node.scopeParts, split, ← List.filterMap_filterMap, List.filterMap_cons,
    UsingRun.ofPart?]
  cases UsingRun.ofDirectives? (part.takeWhile Node.isUsing) <;> rfl

/-- The folds of a scope run from the first directive of a part's first run to another, the last. -/
theorem SyntaxTree.mem_usingFolds_iff {tree : SyntaxTree} {scope : Node} {fold : Fold} :
    fold ∈ tree.usingFolds scope ↔
      ∃ part ∈ scope.scopeParts, ∃ first rest last,
        part.takeWhile Node.isUsing = first :: rest ∧ rest.getLast? = some last ∧
          fold = tree.importsFold first last := by
  rw [usingFolds_eq, List.mem_filterMap]
  refine exists_congr fun part => and_congr_right fun _ => ?_
  rw [UsingRun.ofPart?]
  cases run : part.takeWhile Node.isUsing with
  | nil => simp [UsingRun.ofDirectives?]
  | cons first rest =>
      cases final : rest.getLast? with
      | none =>
          obtain rfl := List.getLast?_eq_none_iff.mp final
          simp [UsingRun.ofDirectives?, UsingRun.fold?]
      | some last =>
          have isLong : rest.isEmpty = false := by
            cases rest with
            | nil => cases final
            | cons _ _ => rfl
          have made :
              (UsingRun.ofDirectives? (first :: rest)).bind (UsingRun.fold? tree) =
                some (tree.importsFold first last) := by
            simp [UsingRun.ofDirectives?, UsingRun.fold?, importsFold, final, isLong]
          rw [made, Option.some.injEq]
          constructor
          · rintro rfl
            exact ⟨first, rest, last, rfl, final, rfl⟩
          · rintro ⟨_, _, _, same, isLast, rfl⟩
            obtain ⟨rfl, rfl⟩ := List.cons.inj same
            rw [Option.some.inj (final.symm.trans isLast)]

end SourceAnnotations
