import Mathlib.Data.List.Basic
import Mathlib.Data.List.TakeWhile
import SourceAnnotations.Tag.Word

/-!
# Words of a table

A comment is tagged when its first line, from the first character that is neither a star nor white
space, is a word of the table, or such a word with a colon or white space behind it.  Of two words
that begin one line the shorter would have a character of the longer behind it.  So words without
colons and white space never begin one line both, and it does not matter which word of the table is
tried first.
-/

namespace SourceAnnotations

/-! ## First lines -/

namespace Text

/-- The first line of a text ends with the text or before the first line feed, and a carriage
return directly before the line feed is no part of it. -/
inductive IsFirstLine : Text → Text → Prop
  | whole {line : Text} (inLine : '\n' ∉ line) : IsFirstLine line line
  | beforeLineFeed {line rest : Text} (inLine : '\n' ∉ line)
      (bare : line.getLast? ≠ some '\r') : IsFirstLine (line ++ '\n' :: rest) line
  | beforeReturn {line rest : Text} (inLine : '\n' ∉ line) :
      IsFirstLine (line ++ '\r' :: '\n' :: rest) line

theorem isUnbroken {line : Text} (inLine : '\n' ∉ line) :
    ∀ c ∈ line, decide (c ≠ '\n') = true :=
  fun _ member => decide_eq_true fun isBreak => inLine (isBreak ▸ member)

theorem firstLine_of_not_mem {line : Text} (inLine : '\n' ∉ line) : firstLine line = line := by
  rw [firstLine, List.takeWhile_eq_self_iff.mpr (isUnbroken inLine),
    List.dropWhile_eq_nil_iff.mpr (isUnbroken inLine)]

theorem firstLine_append {line : Text} (inLine : '\n' ∉ line) (rest : Text) :
    firstLine (line ++ '\n' :: rest) =
      if line.getLast? = some '\r' then line.dropLast else line := by
  have taken : (line ++ '\n' :: rest).takeWhile (· ≠ '\n') = line := by
    rw [List.takeWhile_append_of_pos (isUnbroken inLine), List.takeWhile_cons_of_neg (by simp),
      List.append_nil]
  have left : (line ++ '\n' :: rest).dropWhile (· ≠ '\n') = '\n' :: rest := by
    rw [List.dropWhile_append_of_pos (isUnbroken inLine), List.dropWhile_cons_of_neg (by simp)]
  rw [firstLine, taken, left]

theorem isFirstLine_iff {text line : Text} : IsFirstLine text line ↔ line = firstLine text := by
  constructor
  · intro isFirst
    cases isFirst with
    | whole inLine => rw [firstLine_of_not_mem inLine]
    | beforeLineFeed inLine bare => rw [firstLine_append inLine, if_neg bare]
    | beforeReturn inLine =>
        have inBoth : '\n' ∉ line ++ ['\r'] := by simp [inLine]
        rw [List.append_cons, firstLine_append inBoth, if_pos List.getLast?_concat,
          List.dropLast_concat]
  · rintro rfl
    by_cases broken : '\n' ∈ text
    · obtain ⟨line, rest, rfl, inLine⟩ := List.eq_append_cons_of_mem broken
      rw [firstLine_append inLine]
      by_cases returns : line.getLast? = some '\r'
      · obtain ⟨body, rfl⟩ := List.getLast?_eq_some_iff.mp returns
        rw [if_pos returns, List.dropLast_concat, ← List.append_cons]
        exact .beforeReturn fun member => inLine (List.mem_append_left _ member)
      · rw [if_neg returns]
        exact .beforeLineFeed inLine returns
    · rw [firstLine_of_not_mem broken]
      exact .whole broken

/-- The text without a colon at its start. -/
def withoutColon (text : Text) : Text :=
  if text.head? = some ':' then text.tail else text

end Text

/-! ## Lines that tag -/

namespace Comment

/-- The line is the first one of the comment without the stars and the white space at its start. -/
def HasTagLine (comment : Comment) (line : Text) : Prop :=
  ∃ lead, Text.IsFirstLine comment.text.toList (lead ++ line) ∧
    (∀ c ∈ lead, c = '*' ∨ isWhiteSpace c = true) ∧
      ∀ c ∈ line.head?, c ≠ '*' ∧ isWhiteSpace c = false

variable {comment : Comment} {line : Text}

theorem hasTagLine_tagLine (comment : Comment) : comment.HasTagLine comment.tagLine := by
  let skipped : Char → Bool := fun c => c = '*' || isWhiteSpace c
  let first := Text.firstLine comment.text.toList
  refine ⟨first.takeWhile skipped, ?_, fun c member => ?_, fun c isHead => ?_⟩
  · have whole : first.takeWhile skipped ++ comment.tagLine = first :=
      List.takeWhile_append_dropWhile
    rw [whole]
    exact Text.isFirstLine_iff.mpr rfl
  · have isSkipped : skipped c = true := List.mem_takeWhile_imp member
    simpa [skipped] using isSkipped
  · have isKept := List.head?_dropWhile_not skipped first
    have atHead : (first.dropWhile skipped).head? = some c := isHead
    rw [atHead] at isKept
    simpa [skipped] using isKept

theorem HasTagLine.eq_tagLine (has : comment.HasTagLine line) : line = comment.tagLine := by
  obtain ⟨lead, isFirst, skipped, kept⟩ := has
  have isSkipped : ∀ c ∈ lead, (decide (c = '*') || isWhiteSpace c) = true := by
    intro c member
    simpa using skipped c member
  rw [tagLine, ← Text.isFirstLine_iff.mp isFirst, List.dropWhile_append_of_pos isSkipped]
  cases line with
  | nil => rfl
  | cons head tail =>
      obtain ⟨notStar, notSpace⟩ := kept head rfl
      rw [List.dropWhile_cons_of_neg (by simp [notStar, notSpace])]

/-- A tag word is looked for at the very start of the line. -/
theorem HasTagLine.trimStart_eq (has : comment.HasTagLine line) : line.trimStart = line := by
  obtain ⟨_, _, _, kept⟩ := has
  cases line with
  | nil => rfl
  | cons head tail =>
      refine List.dropWhile_cons_of_neg ?_
      rw [(kept head rfl).2]
      exact Bool.false_ne_true

end Comment

namespace TagWord

/-- The line is the word and the rest, and the rest is empty or begins with a colon or white
space. -/
structure Heads (word : TagWord) (line rest : Text) : Prop where
  nonempty : word.name ≠ ""
  spelt : line = word.name.toList ++ rest
  whole : ∀ c ∈ rest.head?, c = ':' ∨ isWhiteSpace c = true

/-- Neither a colon nor white space is in the word. -/
def IsPlain (word : TagWord) : Prop :=
  ∀ c ∈ word.name.toList, c ≠ ':' ∧ isWhiteSpace c = false

instance (word : TagWord) : Decidable word.IsPlain :=
  decidable_of_iff (word.name.toList.all fun c => c ≠ ':' && !isWhiteSpace c)
    (by simp [IsPlain])

variable {word other : TagWord} {line rest rest' message : Text}

theorem message?_of_heads (heads : word.Heads line.trimStart rest) :
    word.message? line = some rest.withoutColon.trim := by
  rw [message?, if_neg heads.nonempty,
    List.isPrefixOf?_eq_some_iff_append_eq.mpr heads.spelt.symm]
  cases rest with
  | nil => rfl
  | cons next rest =>
      by_cases isColon : next = ':'
      · subst next
        rfl
      · have isSpace := (heads.whole next rfl).resolve_left isColon
        have kept : Text.withoutColon (next :: rest) = next :: rest :=
          if_neg (by simpa using isColon)
        simp only [isColon, isSpace, kept, if_true, if_false]

theorem exists_heads_of_message? (found : word.message? line = some message) :
    ∃ rest, word.Heads line.trimStart rest := by
  rw [message?] at found
  split at found
  · cases found
  · next nonempty =>
    split at found
    · cases found
    · next spelt =>
      exact ⟨[], nonempty, (List.isPrefixOf?_eq_some_iff_append_eq.mp spelt).symm, nofun⟩
    · next next rest spelt =>
      refine ⟨next :: rest, nonempty, (List.isPrefixOf?_eq_some_iff_append_eq.mp spelt).symm, ?_⟩
      intro c isNext
      obtain rfl := Option.some.inj isNext
      by_cases isColon : next = ':'
      · exact .inl isColon
      · by_cases isSpace : isWhiteSpace next
        · exact .inr isSpace
        · rw [if_neg isColon, if_neg isSpace] at found
          cases found

theorem message?_eq_some_iff :
    word.message? line = some message ↔
      ∃ rest, word.Heads line.trimStart rest ∧ message = rest.withoutColon.trim := by
  constructor
  · intro found
    obtain ⟨rest, heads⟩ := exists_heads_of_message? found
    rw [message?_of_heads heads] at found
    exact ⟨rest, heads, (Option.some.inj found).symm⟩
  · rintro ⟨rest, heads, rfl⟩
    exact message?_of_heads heads

/-- A word without colons and white space ends where the line has one of them. -/
theorem eq_of_isPrefix {name longer : Text}
    (ordinary : ∀ c ∈ longer, c ≠ ':' ∧ isWhiteSpace c = false)
    (spelt : name ++ rest = longer ++ rest')
    (whole : ∀ c ∈ rest.head?, c = ':' ∨ isWhiteSpace c = true) (isPrefix : name <+: longer) :
    name = longer := by
  obtain ⟨extra, rfl⟩ := isPrefix
  rw [List.append_assoc, List.append_cancel_left_eq] at spelt
  cases extra with
  | nil => rw [List.append_nil]
  | cons head tail =>
      obtain ⟨notColon, notSpace⟩ := ordinary head (List.mem_append_right _ List.mem_cons_self)
      rcases whole head (by rw [spelt]; rfl) with isColon | isSpace
      · exact absurd isColon notColon
      · rw [notSpace] at isSpace
        cases isSpace

theorem Heads.unique (plain : word.IsPlain) (plainOther : other.IsPlain)
    (heads : word.Heads line rest) (headsOther : other.Heads line rest') :
    word = other ∧ rest = rest' := by
  have spelt := heads.spelt.symm.trans headsOther.spelt
  have names : word.name.toList = other.name.toList := by
    rcases List.prefix_or_prefix_of_prefix (List.prefix_append _ rest)
      (spelt ▸ List.prefix_append _ rest') with shorter | longer
    · exact eq_of_isPrefix plainOther spelt heads.whole shorter
    · exact (eq_of_isPrefix plain spelt.symm headsOther.whole longer).symm
  refine ⟨?_, ?_⟩
  · obtain ⟨name⟩ := word
    obtain ⟨name'⟩ := other
    exact congrArg TagWord.mk (String.toList_inj.mp names)
  · rw [names] at spelt
    exact List.append_cancel_left spelt

end TagWord

/-! ## Tags -/

namespace Comment

/-- The comment is no documentation, its tag line begins with a word of the table, and the tag has
the word, what the line has behind it and the region of the comment. -/
def HasTag (words : List TagWord) (comment : Comment) (tag : Tag) : Prop :=
  comment.kind ≠ .documentation ∧ ∃ word ∈ words, ∃ line rest,
    comment.HasTagLine line ∧ word.Heads line rest ∧
      tag = ⟨word.name, String.ofList rest.withoutColon.trim, comment.region⟩

variable {words : List TagWord} {comment : Comment} {tag other : Tag}

theorem HasTag.unique (plain : ∀ word ∈ words, word.IsPlain) (has : comment.HasTag words tag)
    (hasOther : comment.HasTag words other) : tag = other := by
  obtain ⟨_, word, isWord, line, rest, isLine, heads, rfl⟩ := has
  obtain ⟨_, word', isWord', line', rest', isLine', heads', rfl⟩ := hasOther
  obtain rfl := isLine.eq_tagLine.trans isLine'.eq_tagLine.symm
  obtain ⟨rfl, rfl⟩ := heads.unique (plain word isWord) (plain word' isWord') heads'
  rfl

theorem hasTag_of_tag? (found : comment.tag? words = some tag) : comment.HasTag words tag := by
  have isLine := hasTagLine_tagLine comment
  rw [tag?] at found
  split at found
  · cases found
  · next notDocumentation =>
    obtain ⟨word, isWord, made⟩ := List.exists_of_findSome?_eq_some found
    obtain ⟨message, isMessage, rfl⟩ := Option.map_eq_some_iff.mp made
    obtain ⟨rest, heads, rfl⟩ := TagWord.message?_eq_some_iff.mp isMessage
    rw [isLine.trimStart_eq] at heads
    refine ⟨fun isDocumentation => notDocumentation ?_, word, isWord, _, rest, isLine, heads, rfl⟩
    exact decide_eq_true isDocumentation

/-- A comment that has a tag is given one, by the first of the words that begin its tag line. -/
theorem exists_tag?_of_hasTag (has : comment.HasTag words tag) :
    ∃ found, comment.tag? words = some found := by
  obtain ⟨notDocumentation, word, isWord, line, rest, isLine, heads, _⟩ := has
  rw [← isLine.trimStart_eq] at heads
  rw [← Option.isSome_iff_exists, tag?, if_neg (by simpa [isDocumentation] using notDocumentation),
    List.findSome?_isSome_iff]
  refine ⟨word, isWord, ?_⟩
  rw [← isLine.eq_tagLine, TagWord.message?_of_heads heads]
  rfl

theorem tag?_eq_some_iff (plain : ∀ word ∈ words, word.IsPlain) :
    comment.tag? words = some tag ↔ comment.HasTag words tag := by
  refine ⟨hasTag_of_tag?, fun has => ?_⟩
  obtain ⟨found, isFound⟩ := exists_tag?_of_hasTag has
  rw [isFound, (hasTag_of_tag? isFound).unique plain has]

end Comment

/-- The tags of comments in the order of the comments, one for each comment that has one. -/
inductive AreTagsOf (words : List TagWord) : List Comment → List Tag → Prop
  | nil : AreTagsOf words [] []
  | tagged {comment : Comment} {comments : List Comment} {tag : Tag} {tags : List Tag}
      (has : comment.HasTag words tag) (rest : AreTagsOf words comments tags) :
      AreTagsOf words (comment :: comments) (tag :: tags)
  | untagged {comment : Comment} {comments : List Comment} {tags : List Tag}
      (none : ∀ tag, ¬ comment.HasTag words tag) (rest : AreTagsOf words comments tags) :
      AreTagsOf words (comment :: comments) tags

theorem areTagsOf_commentTags (words : List TagWord) (comments : List Comment) :
    AreTagsOf words comments (commentTags comments words) := by
  induction comments with
  | nil => exact .nil
  | cons comment rest inductionHypothesis =>
      rw [commentTags, List.filterMap_cons]
      cases found : comment.tag? words with
      | none =>
          refine .untagged (fun tag has => ?_) inductionHypothesis
          obtain ⟨other, isFound⟩ := Comment.exists_tag?_of_hasTag has
          rw [found] at isFound
          cases isFound
      | some tag => exact .tagged (Comment.hasTag_of_tag? found) inductionHypothesis

/-- The tags of comments are the same by any table with the same words, if these have no colon and
no white space.  Each comment has at most one tag, by the one word that its tag line begins with. -/
theorem comment_tags_ignore_order_of_words (words : List TagWord)
    (plain : ∀ word ∈ words, word.IsPlain) (comments : List Comment) :
    (∀ others, (∀ word, word ∈ others ↔ word ∈ words) →
      commentTags comments others = commentTags comments words) ∧
    AreTagsOf words comments (commentTags comments words) ∧
    (∀ (comment : Comment) (tag other : Tag),
      comment.HasTag words tag → comment.HasTag words other → tag = other) ∧
    ∀ line, ∀ word ∈ words, ∀ other ∈ words, ∀ rest rest',
      word.Heads line rest → other.Heads line rest' → word = other ∧ rest = rest' := by
  refine ⟨fun others same => ?_, areTagsOf_commentTags words comments,
    fun comment tag other has hasOther => has.unique plain hasOther, ?_⟩
  · have plainOthers : ∀ word ∈ others, word.IsPlain :=
      fun word isWord => plain word ((same word).mp isWord)
    have sameTags (comment : Comment) (tag : Tag) :
        comment.HasTag others tag ↔ comment.HasTag words tag := by
      simp only [Comment.HasTag, same]
    refine List.filterMap_congr fun comment _ => Option.ext fun tag => ?_
    rw [Comment.tag?_eq_some_iff plainOthers, Comment.tag?_eq_some_iff plain, sameTags]
  · intro line word isWord other isOther rest rest' heads headsOther
    exact heads.unique (plain word isWord) (plain other isOther) headsOther

/-- The first comment has stars before a word that begins another word of the table.  The second one
is documentation, and the last one begins with a word that only begins like one of the table. -/
def taskComments : List Comment :=
  [⟨.block, "/*", "*/", "* TO: TODO : y\r\nTO z", ⟨⟨0, 0⟩, ⟨1, 6⟩, 0, 24⟩, true⟩,
    ⟨.documentation, "///", "", " TO x", ⟨⟨2, 0⟩, ⟨2, 8⟩, 25, 33⟩, true⟩,
    ⟨.singleLine, "//", "", " TODO\t: x ", ⟨⟨3, 0⟩, ⟨3, 12⟩, 34, 46⟩, true⟩,
    ⟨.singleLine, "//", "", "TODOS", ⟨⟨4, 0⟩, ⟨4, 7⟩, 47, 54⟩, true⟩]

theorem comment_tags_ignore_order_of_words_nested :
    (∀ word ∈ [TagWord.mk "TO", ⟨"TODO"⟩, ⟨""⟩], word.IsPlain) ∧
      commentTags taskComments [⟨""⟩, ⟨"TODO"⟩, ⟨"TO"⟩, ⟨"TODO"⟩] =
        commentTags taskComments [⟨"TO"⟩, ⟨"TODO"⟩, ⟨""⟩] ∧
      (commentTags taskComments [⟨"TO"⟩, ⟨"TODO"⟩, ⟨""⟩]).map (fun tag => (tag.tag, tag.message)) =
        [("TO", "TODO : y"), ("TODO", ": x")] := by
  have plain : ∀ word ∈ [TagWord.mk "TO", ⟨"TODO"⟩, ⟨""⟩], word.IsPlain := by decide +kernel
  obtain ⟨sameTags, _⟩ := comment_tags_ignore_order_of_words _ plain taskComments
  refine ⟨plain, sameTags _ fun word => ?_, by decide +kernel⟩
  simp only [List.mem_cons, List.not_mem_nil, or_false]
  tauto

end SourceAnnotations
