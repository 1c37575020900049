/-!
# Kinds of rows

The kinds of rows that the walkers look for in a tree of C#. Grammars differ in the names of the
region directives, so both spellings count.
-/

namespace SourceAnnotations.Kinds

def comment : String := "comment"

def compilationUnit : String := "compilation_unit"

def namespaceDeclaration : String := "namespace_declaration"

def fileScopedNamespace : String := "file_scoped_namespace_declaration"

def block : String := "block"

def typeDeclarations : List String :=
  ["class_declaration", "struct_declaration", "interface_declaration", "enum_declaration",
    "record_declaration", "record_struct_declaration"]

def bodies : List String :=
  ["declaration_list", "enum_member_declaration_list"]

def usings : List String :=
  ["using_directive", "extern_alias_directive"]

def regionDirectives : List String :=
  ["preproc_region", "region_directive"]

def endRegionDirectives : List String :=
  ["preproc_endregion", "endregion_directive"]

def throwStatement : String := "throw_statement"

def throwExpression : String := "throw_expression"

def objectCreation : String := "object_creation_expression"

def argument : String := "argument"

def openBrace : String := "\x7b"

def closeBrace : String := "\x7d"

end SourceAnnotations.Kinds
