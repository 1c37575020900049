import Mathlib.Data.List.Basic
import SourceAnnotations.Proofs.Fold.Kinds

/-!
# Folds of first runs

The walk passes every scope that it comes to on to the scan for using directives, and no other row.
For a scope the scan makes one fold for each part whose first run has at least two directives, in
the order of the parts, and what stands in a part behind its first run does not matter.
-/

namespace SourceAnnotations

namespace SyntaxTree

variable {tree : SyntaxTree}

/-- The fold of the using directives that a part of a scope begins with, if they are two or more. -/
def firstRunFold? (tree : SyntaxTree) (part : List Node) : Option Fold :=
  match part.takeWhile Node.isUsing with
  | first :: second :: rest =>
      some (tree.importsFold first ((second :: rest).getLast (List.cons_ne_nil second rest)))
  | _ => none

theorem fold?_ofPart? (part : List Node) :
    (UsingRun.ofPart? part).bind (UsingRun.fold? tree) = tree.firstRunFold? part := by
  rw [UsingRun.ofPart?, firstRunFold?]
  rcases part.takeWhile Node.isUsing with _ | ⟨first, _ | ⟨second, rest⟩⟩
  · rfl
  · rfl
  · simp only [UsingRun.ofDirectives?, Option.bind_some, UsingRun.fold?, importsFold,
      List.getLast?_eq_some_getLast (List.cons_ne_nil second rest), Option.getD_some]
    rfl

theorem scopeFolds_eq (cursor : Cursor) :
    tree.scopeFolds cursor = cursor.usingScope?.toList.flatMap tree.usingFolds := by
  rw [scopeFolds, Cursor.usingScope?]
  split
  · exact (List.flatMap_singleton _ _).symm
  · split
    · cases cursor.body? with
      | none => rfl
      | some body => exact (List.flatMap_singleton _ _).symm
    · rfl

/-- The folds of imports that the walk finds are, scope after scope, those of the first runs with at
least two directives of the parts between file-scoped namespaces.  A directive behind another member
of its part does not change them. -/
theorem imports_folds_are_first_runs (tree : SyntaxTree) :
    (∀ config : AnnotationConfig,
      (Cursor.walk (tree.visitFolds config) .empty (.atRoot tree.root)).folds.filter
          (fun fold => fold.kind = .imports) =
        ((tree.foldPlaces config).filterMap Cursor.usingScope?).flatMap tree.usingFolds) ∧
    (∀ scope : Node,
      tree.usingFolds scope =
        (((scope.children.eraseP (Node.hasField "name")).filter fun child =>
          child.row.isNamed && !child.isTrivia).splitOnP Node.isFileScopedNamespace).filterMap
            tree.firstRunFold?) ∧
    ∀ (scope without : Node) (front late back : List Node) (other : Node),
      other.isUsing = false → other.isFileScopedNamespace = false →
        (∀ member ∈ late, member.isFileScopedNamespace = false) →
          scope.scopeMembers = front ++ other :: (late ++ back) →
            without.scopeMembers = front ++ other :: back →
              tree.usingFolds scope = tree.usingFolds without := by
  refine ⟨fun config => ?_, fun scope => ?_, ?_⟩
  · rw [walk_visitFolds, filter_imports_scanned, List.filterMap_eq_flatMap_toList,
      List.flatMap_assoc]
    exact List.flatMap_congr fun place _ => scopeFolds_eq place
  · rw [usingFolds_eq]
    exact List.filterMap_congr fun part _ => fold?_ofPart? part
  · intro scope without front late back other isOther inScope sameScope members members'
    rw [usingFolds, usingFolds, members, members',
      UsingRun.usingRuns_append_of_late isOther inScope sameScope]

/-- A member without anything below it. -/
def memberAt (kind : String) (startByte endByte : Nat) : Node :=
  .mk ⟨kind, true, false, false, false, startByte, endByte, none⟩ []

def usingAt (startByte endByte : Nat) : Node :=
  memberAt "using_directive" startByte endByte

/-- Two directives before a class, and two more in the namespace for the rest of the file. -/
def scatteredUsings (late : List Node) : SyntaxTree :=
  .ofText "using A;\nusing B;\nclass C;\nusing D;\nnamespace N;\nusing E;\n//\nusing F;".toList <|
    .mk ⟨"compilation_unit", true, false, false, false, 0, 69, none⟩ <|
      [usingAt 0 8, usingAt 9 17] ++ memberAt "class_declaration" 18 26 ::
        (late ++ [memberAt "file_scoped_namespace_declaration" 36 48, usingAt 49 57,
          memberAt "comment" 58 60, usingAt 61 69])

/-- The directive behind the class has no fold, and those of the namespace have one. -/
theorem imports_folds_are_first_runs_scattered :
    (scatteredUsings [usingAt 27 35]).usingFolds (scatteredUsings [usingAt 27 35]).root =
        (scatteredUsings [usingAt 27 35]).usingFolds (scatteredUsings []).root ∧
      ((scatteredUsings []).usingFolds (scatteredUsings []).root).map (fun fold =>
        (fold.region.startByte, fold.region.endByte)) = [(0, 17), (49, 69)] := by
  have sameFolds := (imports_folds_are_first_runs (scatteredUsings [usingAt 27 35])).2.2
    (scatteredUsings [usingAt 27 35]).root (scatteredUsings []).root [usingAt 0 8, usingAt 9 17]
    [usingAt 27 35]
    [memberAt "file_scoped_namespace_declaration" 36 48, usingAt 49 57, usingAt 61 69]
    (memberAt "class_declaration" 18 26)
  exact ⟨sameFolds rfl rfl (by decide) rfl rfl, by decide +kernel⟩

end SyntaxTree

end SourceAnnotations
