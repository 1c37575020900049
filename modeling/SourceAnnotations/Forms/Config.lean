import SourceAnnotations.Config
import SourceAnnotations.Json.Codec

/-!
# JSON forms of configurations

How comment tokens, tag words and configurations are written as JSON and read back. A missing token
is none, and a missing part of a configuration is that of the default configuration.
-/

namespace SourceAnnotations

open Json

def CommentTokens.record :
    Record CommentTokens (Option (Option String) × Option (Option String) ×
      Option (Option String) × Option (Option String) × Option (Option String) × Unit) where
  name := "CommentConfig"
  fields :=
    .field "line" (.optional .text) CommentTokens.line <|
      .field "doc_line" (.optional .text) CommentTokens.docLine <|
        .field "block_start" (.optional .text) CommentTokens.blockStart <|
          .field "doc_block_start" (.optional .text) CommentTokens.docBlockStart <|
            .field "block_end" (.optional .text) CommentTokens.blockEnd .none
  mayBeShort := false
  finish := fun (line, docLine, blockStart, docBlockStart, blockEnd, ()) =>
    .ok ⟨line.join, docLine.join, blockStart.join, docBlockStart.join, blockEnd.join⟩

def CommentTokens.codec : Codec CommentTokens := CommentTokens.record.codec

def TagWord.record : Record TagWord (Option String × Unit) where
  name := "CommentTag"
  fields := .field "name" .text TagWord.name .none
  mayBeShort := false
  finish := fun (name, ()) => do
    return ⟨← required "name" name⟩

def TagWord.codec : Codec TagWord := TagWord.record.codec

def AnnotationConfig.record :
    Record AnnotationConfig (Option CommentTokens × Option (List TagWord) ×
      Option (List String) × Option Bool × Option Bool × Option Bool × Option Bool × Unit) where
  name := "AnnotationConfig"
  fields :=
    .field "comment" CommentTokens.codec AnnotationConfig.comment <|
      .field "comment_tags" (.list TagWord.codec) AnnotationConfig.tagWords <|
        .field "not_implemented_type_names" (.list .text)
            AnnotationConfig.notImplementedTypeNames <|
          .field "tag_throw_expressions" .boolean AnnotationConfig.tagThrowExpressions <|
            .field "fold_comments" .boolean AnnotationConfig.foldComments <|
              .field "fold_user_regions" .boolean AnnotationConfig.foldUserRegions <|
                .field "collapse_doc_comments" .boolean
                  AnnotationConfig.collapseDocComments .none
  mayBeShort := true
  finish := fun (comment, tagWords, typeNames, tagThrows, foldComments, foldRegions,
      collapseDocs, ()) =>
    let base := AnnotationConfig.default
    .ok
      { comment := comment.getD base.comment
        tagWords := tagWords.getD base.tagWords
        notImplementedTypeNames := typeNames.getD base.notImplementedTypeNames
        tagThrowExpressions := tagThrows.getD base.tagThrowExpressions
        foldComments := foldComments.getD base.foldComments
        foldUserRegions := foldRegions.getD base.foldUserRegions
        collapseDocComments := collapseDocs.getD base.collapseDocComments }

def AnnotationConfig.codec : Codec AnnotationConfig := AnnotationConfig.record.codec

end SourceAnnotations
