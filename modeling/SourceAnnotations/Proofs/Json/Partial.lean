import SourceAnnotations.Error
import SourceAnnotations.Proofs.Json.RoundTrip

/-!
# Partial configurations

A configuration may be written with some of its parts only, and the others are then those of the
default configuration.  What is read is the restriction of the configuration to the parts written.
The parts missing from a text are the default ones in the restriction, so the text holds all parts
of the restriction but those that may be missing, and the restriction is read back from it.  Comment
tokens that are written with some of them only are restricted in the same way, but there a missing
token is none.
-/

namespace SourceAnnotations

open Json

namespace Json

variable {α ρ : Type}

/-! ## Restricted records -/

/-- A field that is the one of `base` when its member is missing. -/
def MemberForm.defaulted (name : String) (form : Form α) (get : ρ → α) (base : ρ) :
    MemberForm ρ where
  name := name
  form := form.comap get
  mayBeMissing record := get record = get base

/-- The restriction has the fields of given names from the record, and members for its other fields
may be missing. -/
def IsRestriction (members : List (MemberForm ρ)) (names : List String)
    (record restricted : ρ) : Prop :=
  ∀ member ∈ members,
    if member.name ∈ names then
      member.form.accepts restricted = member.form.accepts record
    else
      member.mayBeMissing restricted

/-- The members of an object hold those fields of a record that have given names: they are, in some
order, one member for each of these fields and others whose keys belong to no field. -/
def HoldNamed (members : List (MemberForm ρ)) (names : List String) (record : ρ)
    (entries : List (Literal × Document)) : Prop :=
  ∃ known unknown : List (Literal × Document),
    List.Forall₂ (MemberForm.Accepts record)
        (members.filter fun member => member.name ∈ names) known ∧
      (∀ entry ∈ unknown, ∃ key, entry.1.Means key ∧ key ∉ members.map MemberForm.name) ∧
      entries.Perm (known ++ unknown)

namespace IsRestriction

variable {members : List (MemberForm ρ)} {names : List String} {record restricted : ρ}

theorem nil : IsRestriction [] names record restricted :=
  List.forall_mem_nil _

theorem cons {name : String} {form : Form α} {get : ρ → α} {base : ρ}
    (same : get restricted = if name ∈ names then get record else get base)
    (later : IsRestriction members names record restricted) :
    IsRestriction (.defaulted name form get base :: members) names record restricted := by
  refine List.forall_mem_cons.mpr ⟨?_, later⟩
  change if name ∈ names then form.accepts (get restricted) = form.accepts (get record)
    else get restricted = get base
  by_cases isNamed : name ∈ names
  · rw [if_pos isNamed] at same ⊢
    rw [same]
  · rw [if_neg isNamed] at same ⊢
    exact same

theorem accepts_eq (restricts : IsRestriction members names record restricted)
    {member : MemberForm ρ} (isMember : member ∈ members) (isNamed : member.name ∈ names) :
    member.form.accepts restricted = member.form.accepts record := by
  have here := restricts member isMember
  rwa [if_pos isNamed] at here

theorem mayBeMissing (restricts : IsRestriction members names record restricted)
    {member : MemberForm ρ} (isMember : member ∈ members) (notNamed : member.name ∉ names) :
    member.mayBeMissing restricted := by
  have here := restricts member isMember
  rwa [if_neg notNamed] at here

/-- The fields of a record that are held are all fields of its restriction but those that may be
missing. -/
theorem holdFields (restricts : IsRestriction members names record restricted)
    {entries : List (Literal × Document)} (hold : HoldNamed members names record entries) :
    HoldFields members restricted entries := by
  obtain ⟨known, unknown, inOrder, areUnknown, sameEntries⟩ := hold
  refine ⟨members.filter fun member => member.name ∈ names, known, unknown,
    List.filter_sublist, ?_, ?_, areUnknown, sameEntries⟩
  · intro member isMember
    by_cases isNamed : member.name ∈ names
    · left
      exact List.mem_filter.mpr ⟨isMember, decide_eq_true isNamed⟩
    · right
      exact restricts.mayBeMissing isMember isNamed
  · have named : ∀ member ∈ members.filter fun member => member.name ∈ names,
        member.form.accepts restricted = member.form.accepts record := by
      intro member kept
      obtain ⟨isMember, isNamed⟩ := List.mem_filter.mp kept
      exact restricts.accepts_eq isMember (of_decide_eq_true isNamed)
    apply ((List.forall₂_and_left _ _).mpr ⟨named, inOrder⟩).imp
    intro member entry accepted
    obtain ⟨same, means, holds⟩ := accepted
    exact ⟨means, same ▸ holds⟩

/-- The items of the first fields hold fields of the restriction to them, and the items of the
others may be missing. -/
theorem holdItems {count : Nat}
    (restricts : IsRestriction members ((members.map MemberForm.name).take count) record restricted)
    (distinct : (members.map MemberForm.name).Nodup) {items : List Document}
    (accepted : List.Forall₂ (fun member item => member.form.accepts record item)
      (members.take count) items) :
    List.Forall₂ (fun member item => member.form.accepts restricted item)
        (members.take count) items ∧
      ∀ member ∈ members.drop count, member.mayBeMissing restricted := by
  constructor
  · have named : ∀ member ∈ members.take count,
        member.form.accepts restricted = member.form.accepts record := by
      intro member kept
      apply restricts.accepts_eq (List.mem_of_mem_take kept)
      rw [← List.map_take]
      exact List.mem_map_of_mem kept
    apply ((List.forall₂_and_left _ _).mpr ⟨named, accepted⟩).imp
    intro member item holds
    exact holds.1 ▸ holds.2
  · intro member isLeft
    apply restricts.mayBeMissing (List.mem_of_mem_drop isLeft)
    intro isNamed
    have apart := List.disjoint_take_drop distinct (Nat.le_refl count)
    apply apart isNamed
    rw [← List.map_drop]
    exact List.mem_map_of_mem isLeft

end IsRestriction

end Json

/-! ## Comment tokens -/

namespace CommentTokens

def members : List (MemberForm CommentTokens) :=
  [.defaulted "line" (.optional .text) line empty,
    .defaulted "doc_line" (.optional .text) docLine empty,
    .defaulted "block_start" (.optional .text) blockStart empty,
    .defaulted "doc_block_start" (.optional .text) docBlockStart empty,
    .defaulted "block_end" (.optional .text) blockEnd empty]

/-- The tokens whose keys are given; there are no others. -/
def restrictedTo (tokens : CommentTokens) (names : List String) : CommentTokens where
  line := if "line" ∈ names then tokens.line else none
  docLine := if "doc_line" ∈ names then tokens.docLine else none
  blockStart := if "block_start" ∈ names then tokens.blockStart else none
  docBlockStart := if "doc_block_start" ∈ names then tokens.docBlockStart else none
  blockEnd := if "block_end" ∈ names then tokens.blockEnd else none

theorem form_eq : form = .record members :=
  rfl

theorem isRestriction (tokens : CommentTokens) (names : List String) :
    IsRestriction members names tokens (tokens.restrictedTo names) :=
  .cons rfl <| .cons rfl <| .cons rfl <| .cons rfl <| .cons rfl .nil

/-- An object with some of the tokens stands for these tokens without the others. -/
theorem accepts_restrictedTo {tokens : CommentTokens} {names : List String}
    {entries : List (Literal × Document)} (hold : HoldNamed members names tokens entries) :
    form.accepts (tokens.restrictedTo names) (.object entries) := by
  rw [form_eq]
  right
  exact ⟨entries, rfl, (tokens.isRestriction names).holdFields hold⟩

end CommentTokens

/-! ## Configurations -/

/-- A slot that is read holds the field, and a blank one is filled with a default that is the
field. -/
theorem getD_eq_of_filled {α : Type} {slot : Option α} {field base : α}
    (filled : slot = some field ∨ slot = none ∧ field = base) : slot.getD base = field := by
  rcases filled with isRead | ⟨isBlank, isBase⟩
  · rw [isRead, Option.getD_some]
  · rw [isBlank, isBase, Option.getD_none]

namespace AnnotationConfig

def members : List (MemberForm AnnotationConfig) :=
  [.defaulted "comment" CommentTokens.form comment default,
    .defaulted "comment_tags" (.list TagWord.form) tagWords default,
    .defaulted "not_implemented_type_names" (.list .text) notImplementedTypeNames default,
    .defaulted "tag_throw_expressions" .boolean tagThrowExpressions default,
    .defaulted "fold_comments" .boolean foldComments default,
    .defaulted "fold_user_regions" .boolean foldUserRegions default,
    .defaulted "collapse_doc_comments" .boolean collapseDocComments default]

/-- The parts of a configuration whose keys are given, and the other parts of the default one. -/
def restrictedTo (config : AnnotationConfig) (names : List String) : AnnotationConfig where
  comment := if "comment" ∈ names then config.comment else default.comment
  tagWords := if "comment_tags" ∈ names then config.tagWords else default.tagWords
  notImplementedTypeNames :=
    if "not_implemented_type_names" ∈ names then config.notImplementedTypeNames
    else default.notImplementedTypeNames
  tagThrowExpressions :=
    if "tag_throw_expressions" ∈ names then config.tagThrowExpressions
    else default.tagThrowExpressions
  foldComments := if "fold_comments" ∈ names then config.foldComments else default.foldComments
  foldUserRegions :=
    if "fold_user_regions" ∈ names then config.foldUserRegions else default.foldUserRegions
  collapseDocComments :=
    if "collapse_doc_comments" ∈ names then config.collapseDocComments
    else default.collapseDocComments

theorem isRestriction (config : AnnotationConfig) (names : List String) :
    IsRestriction members names config (config.restrictedTo names) :=
  .cons rfl <| .cons rfl <| .cons rfl <| .cons rfl <| .cons rfl <| .cons rfl <| .cons rfl .nil

theorem follow : record.fields.Follow members :=
  .field CommentTokens.codec_follows <| .field (Codec.list_follows TagWord.codec_follows) <|
    .field (Codec.list_follows Codec.text_follows) <| .field Codec.boolean_follows <|
      .field Codec.boolean_follows <| .field Codec.boolean_follows <|
        .field Codec.boolean_follows .none

/-- Every configuration can be written. -/
theorem fits (config : AnnotationConfig) : ∀ member ∈ members, member.form.fits config := by
  simp [members, MemberForm.defaulted, Form.comap, Form.list, Form.text, Form.boolean,
    CommentTokens.form, TagWord.form, Form.record, Form.optional, MemberForm.nullable,
    MemberForm.required]

theorem finishes (config : AnnotationConfig) : record.Finishes members config := by
  rintro ⟨comment, tagWords, typeNames, tagThrows, foldComments, foldRegions, collapseDocs, ⟨⟩⟩
    ⟨isComment, isTagWords, isTypeNames, isTagThrows, isFoldComments, isFoldRegions,
      isCollapseDocs, -⟩
  change Except.ok (AnnotationConfig.mk (comment.getD default.comment)
    (tagWords.getD default.tagWords) (typeNames.getD default.notImplementedTypeNames)
    (tagThrows.getD default.tagThrowExpressions) (foldComments.getD default.foldComments)
    (foldRegions.getD default.foldUserRegions)
    (collapseDocs.getD default.collapseDocComments)) = .ok config
  rw [getD_eq_of_filled isComment, getD_eq_of_filled isTagWords, getD_eq_of_filled isTypeNames,
    getD_eq_of_filled isTagThrows, getD_eq_of_filled isFoldComments,
    getD_eq_of_filled isFoldRegions, getD_eq_of_filled isCollapseDocs]

theorem distinct_names : (members.map MemberForm.name).Nodup := by
  decide

theorem ofJson_of_read {config : AnnotationConfig} {document : Document} {text : Text}
    (written : document.IsWrittenAs text) (read : record.read document.draft = .ok config) :
    ofJson text = .ok config := by
  have decoded : codec.decode text = .ok config := Codec.decode_of_isWrittenAs written read
  rw [ofJson, decoded]
  rfl

theorem ofJson_object {config : AnnotationConfig} {names : List String}
    {entries : List (Literal × Document)} {text : Text}
    (hold : HoldNamed members names config entries)
    (written : (Document.object entries).IsWrittenAs text) :
    ofJson text = .ok (config.restrictedTo names) := by
  apply ofJson_of_read written
  apply Record.read_object follow distinct_names (fits _) (finishes _)
  exact (config.isRestriction names).holdFields hold

theorem ofJson_list {config : AnnotationConfig} {count : Nat} {items : List Document}
    {text : Text}
    (accepted : List.Forall₂ (fun member item => member.form.accepts config item)
      (members.take count) items)
    (written : (Document.list items).IsWrittenAs text) :
    ofJson text = .ok (config.restrictedTo ((members.map MemberForm.name).take count)) := by
  obtain ⟨hold, missing⟩ := (config.isRestriction _).holdItems distinct_names accepted
  apply ofJson_of_read written
  exact Record.read_list follow (fits _) (finishes _) (List.take_append_drop count members).symm
    (.inl rfl) missing hold

/-! ## Partial configurations -/

/-- A configuration that is written with some of its parts, as an object with its members in any
order and unknown ones among them or as the list of its first parts, is read as these parts and
otherwise as the default configuration.  A comment part with some of its tokens has these only. -/
theorem partial_configurations_override_named_parts (config : AnnotationConfig) :
    (∀ (names : List String) (entries : List (Literal × Document)) (text : Text),
      HoldNamed members names config entries →
        (Document.object entries).IsWrittenAs text →
        ofJson text = .ok (config.restrictedTo names)) ∧
      (∀ (names : List String) (entries : List (Literal × Document)),
        HoldNamed CommentTokens.members names config.comment entries →
          CommentTokens.form.accepts (config.comment.restrictedTo names) (.object entries)) ∧
      ∀ (count : Nat) (items : List Document) (text : Text),
        List.Forall₂ (fun member item => member.form.accepts config item)
            (members.take count) items →
          (Document.list items).IsWrittenAs text →
          ofJson text =
            .ok (config.restrictedTo ((members.map MemberForm.name).take count)) := by
  refine ⟨?_, ?_, ?_⟩
  · intro names entries text hold written
    exact ofJson_object hold written
  · intro names entries hold
    exact CommentTokens.accepts_restrictedTo hold
  · intro count items text accepted written
    exact ofJson_list accepted written

/-- The comment part has one token and replaces all default ones, and the parts of the configuration
that are not written stay the default ones. -/
theorem partial_configurations_override_named_parts_one_token :
    let tokens := CommentTokens.lineOnly "#"
    let config : AnnotationConfig :=
      { default with comment := tokens, foldComments := false, foldUserRegions := false }
    ofJson "\x7b\"x\":[],\"fold_comments\":false,\"comment\":\x7b\"line\":\"#\"\x7d\x7d".toList =
        .ok (config.restrictedTo ["comment", "fold_comments"]) ∧
      config.restrictedTo ["comment", "fold_comments"] =
        { default with comment := tokens, foldComments := false } ∧
      ofJson "[\x7b\"line\":\"#\"\x7d]".toList =
        .ok (config.restrictedTo ["comment"]) := by
  intro tokens config
  let plain (text : Text) : Literal := text.flatMap fun c =>
    if isPlain : c ≠ '"' ∧ c ≠ '\\' ∧ 0x20 ≤ c.toNat then [.plain c isPlain] else []
  let line : Literal × Document := (plain ['l', 'i', 'n', 'e'], .text (plain ['#']))
  let comment : Literal × Document :=
    (plain ['c', 'o', 'm', 'm', 'e', 'n', 't'], .object [line])
  let folds : Literal × Document :=
    (plain ['f', 'o', 'l', 'd', '_', 'c', 'o', 'm', 'm', 'e', 'n', 't', 's'], .boolean false)
  let unknown : Literal × Document := (plain ['x'], .list [])
  obtain ⟨objects, parts, lists⟩ := partial_configurations_override_named_parts config
  have holdTokens : HoldNamed CommentTokens.members ["line"] config.comment [line] := by
    refine ⟨[line], [], ?_, List.forall_mem_nil _, List.Perm.refl _⟩
    exact .cons ⟨by decide, plain ['#'], by decide, rfl⟩ .nil
  have isComment : CommentTokens.form.accepts config.comment (.object [line]) :=
    parts ["line"] [line] holdTokens
  have hold : HoldNamed members ["comment", "fold_comments"] config
      [unknown, folds, comment] := by
    refine ⟨[comment, folds], [unknown], ?_, ?_, ?_⟩
    · exact .cons ⟨by decide, isComment⟩ (.cons ⟨by decide, rfl⟩ .nil)
    · exact List.forall_mem_singleton.mpr ⟨"x", by decide, by decide⟩
    · exact List.reverse_perm [comment, folds, unknown]
  refine ⟨?_, rfl, ?_⟩
  · exact objects _ _ _ hold (Document.isWrittenAs_compact _)
  · exact lists 1 [comment.2] _ (.cons isComment .nil) (Document.isWrittenAs_compact _)

end AnnotationConfig

end SourceAnnotations
