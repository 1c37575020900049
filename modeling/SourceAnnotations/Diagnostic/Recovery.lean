import SourceAnnotations.Diagnostic.Basic
import SourceAnnotations.Tree.Parsed
import SourceAnnotations.Tree.Walk

/-!
# Diagnostics of recovery

A parser that goes on after a fault leaves rows of errors and rows of missing tokens in its tree.
Each of them makes one diagnostic, and what lies below it makes none. A tree without such rows is
not walked through at all.
-/

namespace SourceAnnotations

def syntaxErrorDiagnostic (region : Region) : Diagnostic :=
  ⟨"syntax-error", .error, "Syntax error", region⟩

def missingTokenDiagnostic (kind : String) (region : Region) : Diagnostic :=
  ⟨"missing-token", .error, "'" ++ kind ++ "' expected", region⟩

namespace SyntaxTree

/-- What a row adds to the diagnostics, and whether the rows below it are looked at. -/
def visitRecovery (tree : SyntaxTree) (found : List Diagnostic) (cursor : Cursor) :
    List Diagnostic × Visit :=
  if cursor.row.isError then
    (found ++ [syntaxErrorDiagnostic (tree.nodeRegion cursor.focus)], .skip)
  else if cursor.row.isMissing then
    (found ++ [missingTokenDiagnostic cursor.kind (tree.nodeRegion cursor.focus)], .skip)
  else
    (found, if cursor.row.hasError then .descend else .skip)

/-- The diagnostics of a tree's recovery rows, in the order of the text. -/
def recoveryDiagnostics (tree : SyntaxTree) (cancellation : Cancellation) :
    Except DocumentError (List Diagnostic) :=
  if tree.hasErrors then
    walkTree cancellation tree.visitRecovery [] tree.root
  else
    .ok []

end SyntaxTree

end SourceAnnotations
