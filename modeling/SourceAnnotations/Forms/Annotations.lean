import SourceAnnotations.Comment.Basic
import SourceAnnotations.Diagnostic.Basic
import SourceAnnotations.Fold.Basic
import SourceAnnotations.Json.Codec
import SourceAnnotations.Tag.Basic

/-!
# JSON forms of annotations

How locations, regions, comments, tags, folds, diagnostics and reported errors are written as JSON
and read back. No field of these records may be missing.
-/

namespace SourceAnnotations

open Json

/-! ## Places -/

def Location.record : Record Location (Option Nat × Option Nat × Unit) where
  name := "DocumentLocation"
  fields :=
    .field "line" .natural Location.line <|
      .field "column" .natural Location.column .none
  mayBeShort := false
  finish := fun (line, column, ()) => do
    return ⟨← required "line" line, ← required "column" column⟩

def Location.codec : Codec Location := Location.record.codec

def Region.record :
    Record Region (Option Location × Option Location × Option Nat × Option Nat × Unit) where
  name := "DocumentRegion"
  fields :=
    .field "begin" Location.codec Region.start <|
      .field "end" Location.codec Region.stop <|
        .field "start_byte" .natural Region.startByte <|
          .field "end_byte" .natural Region.endByte .none
  mayBeShort := false
  finish := fun (start, stop, startByte, endByte, ()) => do
    return ⟨← required "begin" start, ← required "end" stop,
      ← required "start_byte" startByte, ← required "end_byte" endByte⟩

def Region.codec : Codec Region := Region.record.codec

/-! ## Comments and tags -/

def CommentKind.codec : Codec CommentKind :=
  .variants [("SingleLine", .singleLine), ("Block", .block), ("Documentation", .documentation)]

def Comment.record :
    Record Comment (Option CommentKind × Option String × Option String × Option String ×
      Option Region × Option Bool × Unit) where
  name := "Comment"
  fields :=
    .field "kind" CommentKind.codec Comment.kind <|
      .field "open_tag" .text Comment.openTag <|
        .field "closing_tag" .text Comment.closingTag <|
          .field "text" .text Comment.text <|
            .field "region" Region.codec Comment.region <|
              .field "starts_line" .boolean Comment.startsLine .none
  mayBeShort := false
  finish := fun (kind, openTag, closingTag, text, region, startsLine, ()) => do
    return ⟨← required "kind" kind, ← required "open_tag" openTag,
      ← required "closing_tag" closingTag, ← required "text" text,
      ← required "region" region, ← required "starts_line" startsLine⟩

def Comment.codec : Codec Comment := Comment.record.codec

def Tag.record : Record Tag (Option String × Option String × Option Region × Unit) where
  name := "Tag"
  fields :=
    .field "tag" .text Tag.tag <|
      .field "message" .text Tag.message <|
        .field "region" Region.codec Tag.region .none
  mayBeShort := false
  finish := fun (tag, message, region, ()) => do
    return ⟨← required "tag" tag, ← required "message" message, ← required "region" region⟩

def Tag.codec : Codec Tag := Tag.record.codec

/-! ## Folds -/

def FoldKind.codec : Codec FoldKind :=
  .variants
    [("Undefined", .undefined), ("Imports", .imports), ("Namespace", .namespaceBody),
      ("Type", .typeBody), ("Member", .member), ("Comment", .comment),
      ("UserRegion", .userRegion)]

def Fold.record :
    Record Fold (Option Region × Option FoldKind × Option String × Option Bool × Unit) where
  name := "FoldRegion"
  fields :=
    .field "region" Region.codec Fold.region <|
      .field "kind" FoldKind.codec Fold.kind <|
        .field "name" .text Fold.name <|
          .field "is_collapsed_by_default" .boolean Fold.isCollapsedByDefault .none
  mayBeShort := false
  finish := fun (region, kind, name, isCollapsed, ()) => do
    return ⟨← required "region" region, ← required "kind" kind, ← required "name" name,
      ← required "is_collapsed_by_default" isCollapsed⟩

def Fold.codec : Codec Fold := Fold.record.codec

/-! ## Diagnostics -/

def Severity.codec : Codec Severity :=
  .variants
    [("Hidden", .hidden), ("Info", .info), ("Warning", .warning), ("Error", .error)]

def Diagnostic.record :
    Record Diagnostic (Option String × Option Severity × Option String × Option Region × Unit) where
  name := "Diagnostic"
  fields :=
    .field "id" .text Diagnostic.id <|
      .field "severity" Severity.codec Diagnostic.severity <|
        .field "message" .text Diagnostic.message <|
          .field "region" Region.codec Diagnostic.region .none
  mayBeShort := false
  finish := fun (id, severity, message, region, ()) => do
    return ⟨← required "id" id, ← required "severity" severity,
      ← required "message" message, ← required "region" region⟩

def Diagnostic.codec : Codec Diagnostic := Diagnostic.record.codec

def ErrorKind.codec : Codec ErrorKind :=
  .variants [("Error", .error), ("Warning", .warning), ("Unknown", .unknown)]

def ReportedError.record :
    Record ReportedError
      (Option ErrorKind × Option String × Option String × Option Region × Unit) where
  name := "ReportedError"
  fields :=
    .field "kind" ErrorKind.codec ReportedError.kind <|
      .field "id" .text ReportedError.id <|
        .field "message" .text ReportedError.message <|
          .field "region" Region.codec ReportedError.region .none
  mayBeShort := false
  finish := fun (kind, id, message, region, ()) => do
    return ⟨← required "kind" kind, ← required "id" id,
      ← required "message" message, ← required "region" region⟩

def ReportedError.codec : Codec ReportedError := ReportedError.record.codec

end SourceAnnotations
