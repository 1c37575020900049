import SourceAnnotations.Proofs.Fold.Braces

/-!
# Kinds of folds

The kind of a fold tells what has produced it.  Scopes make the folds of imports, rows with braces
those of namespaces, types and members, and pairs of directives those of user regions.  So the folds
of one kind that a walk finds are those of one producer, in the order of the places that it comes
to.
-/

namespace SourceAnnotations.SyntaxTree

variable {tree : SyntaxTree} {config : AnnotationConfig} {cursor : Cursor} {fold : Fold}

/-! ## The kinds of the producers -/

theorem kind_of_mem_scopeFolds (found : fold ∈ tree.scopeFolds cursor) : fold.kind = .imports := by
  obtain ⟨_, _, ofUsings⟩ := mem_scopeFolds_iff.mp found
  obtain ⟨_, _, _, _, _, _, _, rfl⟩ := mem_usingFolds_iff.mp ofUsings
  rfl

theorem isOfBraces_of_mem_braceFold? (found : fold ∈ (tree.braceFold? cursor).toList) :
    fold.kind.isOfBraces := by
  obtain ⟨kind, region, hasKind, _, _, rfl⟩ :=
    braceFold?_eq_some_iff.mp (Option.mem_toList.mp found)
  rw [braceFoldKind?] at hasKind
  change kind.isOfBraces
  split at hasKind
  · cases hasKind
    rfl
  · split at hasKind
    · cases hasKind
      rfl
    · split at hasKind
      · cases hasKind
        rfl
      · cases hasKind

/-- A row that is no directive makes folds of imports and between braces. -/
theorem kind_of_mem_rowFolds
    (found : fold ∈ tree.scopeFolds cursor ++ (tree.braceFold? cursor).toList) :
    fold.kind = .imports ∨ fold.kind.isOfBraces := by
  rcases List.mem_append.mp found with ofScope | ofBraces
  · exact .inl (kind_of_mem_scopeFolds ofScope)
  · exact .inr (isOfBraces_of_mem_braceFold? ofBraces)

/-- The walk makes no folds of comments. -/
theorem kind_ne_comment_of_mem_scanned {places : List Cursor}
    (found : fold ∈ (tree.scanned config places).folds) : fold.kind ≠ .comment := by
  rcases ((scanned_places places).2 fold).mp found with ofRow | ⟨_, _, _, rfl⟩
  · obtain ⟨place, _, here⟩ := List.mem_flatMap.mp ofRow
    intro isComment
    have ofKind := kind_of_mem_rowFolds here
    rw [isComment] at ofKind
    rcases ofKind with imports | braces
    · cases imports
    · cases braces
  · intro isComment
    cases isComment

/-! ## The folds of one kind -/

/-- A row that is no directive makes no folds of user regions. -/
theorem filter_userRegions_rowFolds (cursor : Cursor) :
    ((tree.scopeFolds cursor ++ (tree.braceFold? cursor).toList).filter fun fold =>
      fold.kind = .userRegion) = [] := by
  refine List.filter_eq_nil_iff.mpr fun fold found isRegion => ?_
  have ofKind := kind_of_mem_rowFolds found
  rw [of_decide_eq_true isRegion] at ofKind
  rcases ofKind with imports | braces
  · cases imports
  · cases braces

/-- The folds of imports are those of the scopes. -/
theorem filter_imports_scanned (places : List Cursor) :
    ((tree.scanned config places).folds.filter fun fold => fold.kind = .imports) =
      places.flatMap tree.scopeFolds := by
  induction places using List.reverseRecOn with
  | nil => rfl
  | append_singleton places last inductionHypothesis =>
      rw [scanned_concat, visitFolds_eq, List.flatMap_append, List.flatMap_singleton]
      by_cases isDirective : last.isDirective config
      · rw [if_pos isDirective, scopeFolds_of_isDirective isDirective, List.append_nil]
        split
        · exact inductionHypothesis
        · rw [FoldScan.endRegion]
          split
          · exact inductionHypothesis
          · rw [List.filter_append, inductionHypothesis]
            exact List.append_nil _
      · have ofBraces : ((tree.braceFold? last).toList.filter fun fold =>
            fold.kind = .imports) = [] := by
          refine List.filter_eq_nil_iff.mpr fun fold found => ?_
          have ofKind := isOfBraces_of_mem_braceFold? found
          intro isImports
          rw [of_decide_eq_true isImports] at ofKind
          cases ofKind
        have ofScope : ((tree.scopeFolds last).filter fun fold => fold.kind = .imports) =
            tree.scopeFolds last :=
          List.filter_eq_self.mpr fun fold found => decide_eq_true (kind_of_mem_scopeFolds found)
        rw [if_neg isDirective]
        change List.filter _ (_ ++ (_ ++ _)) = _
        rw [List.filter_append, List.filter_append, inductionHypothesis, ofScope, ofBraces,
          List.append_nil]

end SourceAnnotations.SyntaxTree
