import SourceAnnotations.Forms.Annotations
import SourceAnnotations.Forms.Config
import SourceAnnotations.Proofs.Json.Records

/-!
# Reading back what is written

The forms of all types that are written as JSON.  Their values are read back from the texts written
for them and from every other text that has one of their forms: records as lists or as objects with
members in any order, unknown members among them, variants as names or as objects, strings with any
characters escaped, and blanks between everything.
-/

namespace SourceAnnotations

open Json

/-! ## Places -/

def Location.form : Form Location :=
  .record [.required "line" .natural Location.line, .required "column" .natural Location.column]

theorem Location.codec_follows : Location.codec.Follows Location.form :=
  Record.codec_follows_of_required
    (.field Codec.natural_follows <| .field Codec.natural_follows .none)
    (by decide) (by simp [MemberForm.required]) fun _ => rfl

def Region.form : Form Region :=
  .record
    [.required "begin" Location.form Region.start,
      .required "end" Location.form Region.stop,
      .required "start_byte" .natural Region.startByte,
      .required "end_byte" .natural Region.endByte]

theorem Region.codec_follows : Region.codec.Follows Region.form :=
  Record.codec_follows_of_required
    (.field Location.codec_follows <| .field Location.codec_follows <|
      .field Codec.natural_follows <| .field Codec.natural_follows .none)
    (by decide) (by simp [MemberForm.required]) fun _ => rfl

/-! ## Comments and tags -/

def CommentKind.form : Form CommentKind :=
  .variant fun
    | .singleLine => "SingleLine"
    | .block => "Block"
    | .documentation => "Documentation"

theorem CommentKind.codec_follows : CommentKind.codec.Follows CommentKind.form := by
  refine Codec.variants_follows ?_ ?_ <;> rintro ⟨⟩ <;> rfl

def Comment.form : Form Comment :=
  .record
    [.required "kind" CommentKind.form Comment.kind,
      .required "open_tag" .text Comment.openTag,
      .required "closing_tag" .text Comment.closingTag,
      .required "text" .text Comment.text,
      .required "region" Region.form Comment.region,
      .required "starts_line" .boolean Comment.startsLine]

theorem Comment.codec_follows : Comment.codec.Follows Comment.form :=
  Record.codec_follows_of_required
    (.field CommentKind.codec_follows <| .field Codec.text_follows <|
      .field Codec.text_follows <| .field Codec.text_follows <|
        .field Region.codec_follows <| .field Codec.boolean_follows .none)
    (by decide) (by simp [MemberForm.required]) fun _ => rfl

def Tag.form : Form Tag :=
  .record
    [.required "tag" .text Tag.tag,
      .required "message" .text Tag.message,
      .required "region" Region.form Tag.region]

theorem Tag.codec_follows : Tag.codec.Follows Tag.form :=
  Record.codec_follows_of_required
    (.field Codec.text_follows <| .field Codec.text_follows <| .field Region.codec_follows .none)
    (by decide) (by simp [MemberForm.required]) fun _ => rfl

/-! ## Folds -/

def FoldKind.form : Form FoldKind :=
  .variant fun
    | .undefined => "Undefined"
    | .imports => "Imports"
    | .namespaceBody => "Namespace"
    | .typeBody => "Type"
    | .member => "Member"
    | .comment => "Comment"
    | .userRegion => "UserRegion"

theorem FoldKind.codec_follows : FoldKind.codec.Follows FoldKind.form := by
  refine Codec.variants_follows ?_ ?_ <;> rintro ⟨⟩ <;> rfl

def Fold.form : Form Fold :=
  .record
    [.required "region" Region.form Fold.region,
      .required "kind" FoldKind.form Fold.kind,
      .required "name" .text Fold.name,
      .required "is_collapsed_by_default" .boolean Fold.isCollapsedByDefault]

theorem Fold.codec_follows : Fold.codec.Follows Fold.form :=
  Record.codec_follows_of_required
    (.field Region.codec_follows <| .field FoldKind.codec_follows <|
      .field Codec.text_follows <| .field Codec.boolean_follows .none)
    (by decide) (by simp [MemberForm.required]) fun _ => rfl

/-! ## Diagnostics -/

def Severity.form : Form Severity :=
  .variant fun
    | .hidden => "Hidden"
    | .info => "Info"
    | .warning => "Warning"
    | .error => "Error"

theorem Severity.codec_follows : Severity.codec.Follows Severity.form := by
  refine Codec.variants_follows ?_ ?_ <;> rintro ⟨⟩ <;> rfl

def Diagnostic.form : Form Diagnostic :=
  .record
    [.required "id" .text Diagnostic.id,
      .required "severity" Severity.form Diagnostic.severity,
      .required "message" .text Diagnostic.message,
      .required "region" Region.form Diagnostic.region]

theorem Diagnostic.codec_follows : Diagnostic.codec.Follows Diagnostic.form :=
  Record.codec_follows_of_required
    (.field Codec.text_follows <| .field Severity.codec_follows <|
      .field Codec.text_follows <| .field Region.codec_follows .none)
    (by decide) (by simp [MemberForm.required]) fun _ => rfl

def ErrorKind.form : Form ErrorKind :=
  .variant fun
    | .error => "Error"
    | .warning => "Warning"
    | .unknown => "Unknown"

theorem ErrorKind.codec_follows : ErrorKind.codec.Follows ErrorKind.form := by
  refine Codec.variants_follows ?_ ?_ <;> rintro ⟨⟩ <;> rfl

def ReportedError.form : Form ReportedError :=
  .record
    [.required "kind" ErrorKind.form ReportedError.kind,
      .required "id" .text ReportedError.id,
      .required "message" .text ReportedError.message,
      .required "region" Region.form ReportedError.region]

theorem ReportedError.codec_follows : ReportedError.codec.Follows ReportedError.form :=
  Record.codec_follows_of_required
    (.field ErrorKind.codec_follows <| .field Codec.text_follows <|
      .field Codec.text_follows <| .field Region.codec_follows .none)
    (by decide) (by simp [MemberForm.required]) fun _ => rfl

/-! ## Configurations -/

def CommentTokens.form : Form CommentTokens :=
  .record
    [.nullable "line" .text CommentTokens.line,
      .nullable "doc_line" .text CommentTokens.docLine,
      .nullable "block_start" .text CommentTokens.blockStart,
      .nullable "doc_block_start" .text CommentTokens.docBlockStart,
      .nullable "block_end" .text CommentTokens.blockEnd]

/-- A token read is the token of the record, and so is a token that may be missing. -/
theorem join_eq_of_filled {slot : Option (Option String)} {token : Option String}
    (filled : slot = some token ∨ slot = none ∧ token = none) : slot.join = token := by
  rcases filled with rfl | ⟨rfl, rfl⟩ <;> rfl

theorem CommentTokens.codec_follows : CommentTokens.codec.Follows CommentTokens.form := by
  have follows : (Codec.optional .text).Follows (.optional .text) :=
    Codec.optional_follows Codec.text_follows nofun
  refine Record.codec_follows
    (.field follows <| .field follows <| .field follows <| .field follows <|
      .field follows .none) (by decide) ?_
  rintro value ⟨line, docLine, blockStart, docBlockStart, blockEnd, ⟨⟩⟩
    ⟨isLine, isDocLine, isBlockStart, isDocBlockStart, isBlockEnd, -⟩
  change Except.ok (CommentTokens.mk line.join docLine.join blockStart.join docBlockStart.join
    blockEnd.join) = .ok value
  rw [join_eq_of_filled isLine, join_eq_of_filled isDocLine, join_eq_of_filled isBlockStart,
    join_eq_of_filled isDocBlockStart, join_eq_of_filled isBlockEnd]

def TagWord.form : Form TagWord :=
  .record [.required "name" .text TagWord.name]

theorem TagWord.codec_follows : TagWord.codec.Follows TagWord.form :=
  Record.codec_follows_of_required (.field Codec.text_follows .none)
    (by decide) (by simp [MemberForm.required]) fun _ => rfl

def AnnotationConfig.form : Form AnnotationConfig :=
  .record
    [.required "comment" CommentTokens.form AnnotationConfig.comment,
      .required "comment_tags" (.list TagWord.form) AnnotationConfig.tagWords,
      .required "not_implemented_type_names" (.list .text)
        AnnotationConfig.notImplementedTypeNames,
      .required "tag_throw_expressions" .boolean AnnotationConfig.tagThrowExpressions,
      .required "fold_comments" .boolean AnnotationConfig.foldComments,
      .required "fold_user_regions" .boolean AnnotationConfig.foldUserRegions,
      .required "collapse_doc_comments" .boolean AnnotationConfig.collapseDocComments]

theorem AnnotationConfig.codec_follows : AnnotationConfig.codec.Follows AnnotationConfig.form :=
  Record.codec_follows_of_required
    (.field CommentTokens.codec_follows <| .field (Codec.list_follows TagWord.codec_follows) <|
      .field (Codec.list_follows Codec.text_follows) <| .field Codec.boolean_follows <|
        .field Codec.boolean_follows <| .field Codec.boolean_follows <|
          .field Codec.boolean_follows .none)
    (by decide) (by simp [MemberForm.required]) fun _ => rfl

/-! ## All types -/

/-- The values of every type are read back from what is written for them and from every text of one
of their forms. -/
theorem written_values_are_read_back :
    AnnotationConfig.codec.RoundTrips AnnotationConfig.form ∧
      CommentTokens.codec.RoundTrips CommentTokens.form ∧
      TagWord.codec.RoundTrips TagWord.form ∧
      CommentKind.codec.RoundTrips CommentKind.form ∧
      Comment.codec.RoundTrips Comment.form ∧
      Tag.codec.RoundTrips Tag.form ∧
      FoldKind.codec.RoundTrips FoldKind.form ∧
      Fold.codec.RoundTrips Fold.form ∧
      Severity.codec.RoundTrips Severity.form ∧
      Diagnostic.codec.RoundTrips Diagnostic.form ∧
      ErrorKind.codec.RoundTrips ErrorKind.form ∧
      ReportedError.codec.RoundTrips ReportedError.form ∧
      Location.codec.RoundTrips Location.form ∧
      Region.codec.RoundTrips Region.form :=
  ⟨AnnotationConfig.codec_follows.roundTrips, CommentTokens.codec_follows.roundTrips,
    TagWord.codec_follows.roundTrips, CommentKind.codec_follows.roundTrips,
    Comment.codec_follows.roundTrips, Tag.codec_follows.roundTrips,
    FoldKind.codec_follows.roundTrips, Fold.codec_follows.roundTrips,
    Severity.codec_follows.roundTrips, Diagnostic.codec_follows.roundTrips,
    ErrorKind.codec_follows.roundTrips, ReportedError.codec_follows.roundTrips,
    Location.codec_follows.roundTrips, Region.codec_follows.roundTrips⟩

/-- Four tokens are left out, a slash of the fifth is escaped, and a member of another name holds a
number that no reader could take. -/
theorem written_values_are_read_back_unknown_member :
    CommentTokens.codec.decode "\x7b\"x\":1e999,\"line\":\"\\u002f/\"\x7d".toList =
      .ok (CommentTokens.lineOnly "//") := by
  let huge : WrittenNumber :=
    ⟨false, ['1'], [], some ⟨'e', none, ['9', '9', '9'], .inl rfl, by simp, by simp [AreDigits]⟩,
      by simp [AreDigits], rfl, by simp⟩
  let slash : Piece := .unit ⟨'0', 0, rfl⟩ ⟨'0', 0, rfl⟩ ⟨'2', 2, rfl⟩ ⟨'f', 15, rfl⟩
  let slashes : Literal := [slash, .plain '/' (by decide)]
  let line : Literal × Document :=
    ([.plain 'l' (by decide), .plain 'i' (by decide), .plain 'n' (by decide),
      .plain 'e' (by decide)], .text slashes)
  let unknown : Literal × Document := ([.plain 'x' (by decide)], .number huge)
  have accepted :
      CommentTokens.form.accepts (CommentTokens.lineOnly "//") (.object [unknown, line]) := by
    refine .inr ⟨_, rfl, [.nullable "line" .text CommentTokens.line], [line], [unknown],
      .cons_cons _ (List.nil_sublist _), ?_, ?_, ?_, List.Perm.swap ..⟩
    · simp [MemberForm.nullable, CommentTokens.lineOnly, CommentTokens.empty]
    · exact .cons ⟨by decide, slashes, by decide, rfl⟩ .nil
    · exact List.forall_mem_singleton.mpr ⟨"x", by decide, by decide⟩
  have fits : CommentTokens.form.fits (CommentTokens.lineOnly "//") := by
    simp [CommentTokens.form, Form.record, MemberForm.nullable, Form.comap, Form.optional,
      Form.text]
  exact (written_values_are_read_back.2.1 _ fits).2 _ _ accepted (Document.isWrittenAs_compact _)

end SourceAnnotations
