import SourceAnnotations.Proofs.Bounds.Offsets
import SourceAnnotations.Proofs.Comment.Rows
import SourceAnnotations.Proofs.Text.Lines
import SourceAnnotations.Tag.Word

/-!
# Comments and their tags within range

The collector of comments takes the body of a comment by cutting off as many bytes as the opening
token has, and it looks at the line before a comment from the byte behind the last line feed
on.  The reader of tag words cuts off one byte for a colon.  Here these steps are made at their
bytes and checked.  An opening token is cut off only where the text was found to begin with it, and
a row whose range is no range of the text has an empty text, at which the collector has stopped
before it comes to a cut.
-/

namespace SourceAnnotations

/-- A pass over a list whose steps all succeed does what the steps do. -/
theorem filterMapM_eq_some {α β : Type} {checked : α → Option (Option β)} {found? : α → Option β}
    (agree : ∀ item, checked item = some (found? item)) (items : List α) :
    items.filterMapM checked = some (items.filterMap found?) := by
  induction items with
  | nil => rfl
  | cons item items inductionHypothesis =>
    rw [List.filterMapM_cons, agree, Option.bind_eq_bind, Option.bind_some, List.filterMap_cons]
    cases found? item with
    | none => exact inductionHypothesis
    | some result => simp [inductionHypothesis]

namespace Text

variable (text : Text)

/-! ## Lines before a byte -/

/-- The byte at which the last line feed stands. -/
def lastBreak? : Text → Option Nat
  | [] => none
  | head :: tail =>
      match lastBreak? tail with
      | some byte => some (head.utf8Size + byte)
      | none => if head = '\n' then some 0 else none

/-- Whether only white space stands before a byte on its line. -/
def checkedStartsLineAt? (byte : Nat) : Option Bool := do
  let before ← text.takeBytes? byte
  let lineStart := (lastBreak? before).elim 0 (· + 1)
  let line ← text.slice? lineStart byte
  return line.trim.isEmpty

theorem lastBreak?_concat (c : Char) :
    lastBreak? (text ++ [c]) = if c = '\n' then some text.byteSize else lastBreak? text := by
  induction text with
  | nil => rfl
  | cons head tail inductionHypothesis =>
    rw [List.cons_append, lastBreak?, inductionHypothesis]
    by_cases isBreak : c = '\n'
    · simp only [if_pos isBreak, byteSize_cons]
    · simp only [if_neg isBreak, lastBreak?]

/-- The last line begins behind the last line feed, or with the text. -/
theorem exists_before_lastBreak :
    ∃ before, text = before ++ lastLine text ∧
      before.byteSize = (lastBreak? text).elim 0 (· + 1) := by
  induction text using List.reverseRecOn with
  | nil => exact ⟨[], rfl, rfl⟩
  | append_singleton front c inductionHypothesis =>
    rw [lastBreak?_concat]
    by_cases isBreak : c = '\n'
    · have empty : lastLine (front ++ [c]) = [] := by
        rw [lastLine, List.reverse_concat, isBreak]
        rfl
      refine ⟨front ++ [c], by rw [empty, List.append_nil], ?_⟩
      rw [if_pos isBreak, isBreak, byteSize_append]
      rfl
    · have inLine : '\n' ∉ [c] := fun member => isBreak (List.mem_singleton.mp member).symm
      obtain ⟨before, split, size⟩ := inductionHypothesis
      refine ⟨before, ?_, by rw [if_neg isBreak, size]⟩
      rw [lastLine_append inLine, ← List.append_assoc, ← split]

theorem isEmpty_trim : text.trim.isEmpty = text.all isWhiteSpace := by
  rw [Bool.eq_iff_iff, List.isEmpty_iff, List.all_eq_true, trim, trimEnd, dropEndWhile,
    List.reverse_eq_nil_iff, List.dropWhile_eq_nil_iff, trimStart]
  constructor
  · intro blank c member
    rw [← List.takeWhile_append_dropWhile (p := isWhiteSpace) (l := text)] at member
    rcases List.mem_append.mp member with leading | remaining
    · exact List.mem_takeWhile_imp leading
    · exact blank c (List.mem_reverse.mpr remaining)
  · intro blank c member
    exact blank c ((List.dropWhile_sublist _).subset (List.mem_reverse.mp member))

theorem checkedStartsLineAt?_eq {byte : Nat} {before rest : Text} (split : text = before ++ rest)
    (size : before.byteSize = byte) :
    text.checkedStartsLineAt? byte = some (text.startsLineAt byte) := by
  have taken : text.takeBytes? byte = some before := by
    rw [split, ← size, takeBytes?_byteSize_append]
  obtain ⟨earlier, whole, start⟩ := before.exists_before_lastBreak
  have sliced :
      text.slice? ((lastBreak? before).elim 0 (· + 1)) byte = some (lastLine before) := by
    rw [slice?_eq_some_iff, ← start]
    refine ⟨earlier, rest, by rw [← whole, split], rfl, ?_⟩
    rw [← size, ← byteSize_append, ← whole]
  simp [checkedStartsLineAt?, startsLineAt, taken, sliced, isEmpty_trim]

end Text

/-! ## Forms of comments -/

namespace CommentTokens

variable (tokens : CommentTokens) (text : Text)

/-- Whether a text opens with the token of a documentation line, the token cut off by its bytes. -/
def checkedIsDocLine? : Option Bool :=
  match tokens.docLine with
  | none => some false
  | some token =>
      if token ≠ "" && token.toList.isPrefixOf text then do
        let rest ← text.dropBytes? (Text.byteSize token.toList)
        return rest.head? ≠ some '/'
      else
        some false

def checkedForm? : Option (Option CommentForm) :=
  match tokens.blockForm? text with
  | some form => some (some form)
  | none => do
      let isDocumentation ← tokens.checkedIsDocLine? text
      if isDocumentation then
        return tokens.docLine.map fun token => ⟨.documentation, token, ""⟩
      else
        return tokens.lineForm? text

@[simp]
theorem checkedIsDocLine?_eq : tokens.checkedIsDocLine? text = some (tokens.isDocLine text) := by
  rw [checkedIsDocLine?, isDocLine]
  cases tokens.docLine with
  | none => rfl
  | some token =>
    simp only [← List.isSome_isPrefixOf?_eq_isPrefixOf]
    cases found : token.toList.isPrefixOf? text with
    | none => simp
    | some rest =>
      have cut : text.dropBytes? (Text.byteSize token.toList) = some rest := by
        rw [← List.isPrefixOf?_eq_some_iff_append_eq.mp found, Text.dropBytes?_byteSize_append]
      by_cases isEmpty : token = ""
      · simp [isEmpty]
      · simp [isEmpty, cut]

@[simp]
theorem checkedForm?_eq : tokens.checkedForm? text = some (tokens.form? text) := by
  rw [checkedForm?, form?, checkedIsDocLine?_eq]
  cases tokens.blockForm? text with
  | some form => rfl
  | none =>
    rw [docLineForm?]
    cases isDocumentation : tokens.isDocLine text with
    | false => cases tokens.docLine <;> simp
    | true =>
      cases absent : tokens.docLine with
      | none => simp [isDocLine, absent] at isDocumentation
      | some token => simp

variable {tokens text}

/-! A text has a form only by beginning with the token of the form. -/

variable {form : CommentForm}

theorem opens_of_isDocLine {token : String} (isToken : tokens.docLine = some token)
    (isDocumentation : tokens.isDocLine text = true) : token.toList <+: text := by
  rw [isDocLine, isToken] at isDocumentation
  cases found : token.toList.isPrefixOf? text with
  | none => simp [found] at isDocumentation
  | some rest => exact ⟨rest, List.isPrefixOf?_eq_some_iff_append_eq.mp found⟩

theorem opens_of_isDocBlock {token : String} (isToken : tokens.docBlockStart = some token)
    (isDocumentation : tokens.isDocBlock text = true) : token.toList <+: text := by
  rw [isDocBlock, isToken] at isDocumentation
  simp only [Bool.and_eq_true, List.isPrefixOf_iff_prefix] at isDocumentation
  exact isDocumentation.1.2

theorem opens_of_blockForm? (found : tokens.blockForm? text = some form) :
    form.openTag.toList <+: text := by
  rw [blockForm?] at found
  grind [opens_of_isDocBlock]

theorem opens_of_docLineForm? (found : tokens.docLineForm? text = some form) :
    form.openTag.toList <+: text := by
  rw [docLineForm?] at found
  grind [opens_of_isDocLine]

theorem opens_of_lineForm? (found : tokens.lineForm? text = some form) :
    form.openTag.toList <+: text := by
  rw [lineForm?] at found
  grind

theorem opens_of_form? (found : tokens.form? text = some form) :
    form.openTag.toList <+: text := by
  rw [form?] at found
  split at found
  · next isBlock =>
    cases found
    exact opens_of_blockForm? isBlock
  · split at found
    · next isDocLine =>
      cases found
      exact opens_of_docLineForm? isDocLine
    · exact opens_of_lineForm? found

end CommentTokens

/-- The body of a comment, its opening token cut off by its bytes. -/
def CommentForm.checkedBody? (form : CommentForm) (text : Text) : Option Text := do
  let body ← text.dropBytes? (Text.byteSize form.openTag.toList)
  if form.closingTag = "" then
    return body
  else
    return (form.closingTag.toList.isSuffixOf? body).getD body

theorem CommentForm.checkedBody?_eq {form : CommentForm} {text : Text}
    (opens : form.openTag.toList <+: text) :
    form.checkedBody? text = some (form.body text) := by
  obtain ⟨rest, rfl⟩ := opens
  have cut : form.openTag.toList.isPrefixOf? (form.openTag.toList ++ rest) = some rest :=
    List.isPrefixOf?_eq_some_iff_append_eq.mpr rfl
  rw [checkedBody?, body, cut, Text.dropBytes?_byteSize_append, Option.bind_eq_bind,
    Option.bind_some, Option.getD_some]
  split <;> rfl

-- A text that does not open with the token may have no character boundary where the token ends.
example : CommentForm.checkedBody? ⟨.block, "/*", "*/"⟩ ['€'] = none := by
  decide

/-! ## The collector of comments -/

namespace SyntaxTree

variable (tree : SyntaxTree)

def checkedComment? (tokens : CommentTokens) (node : Node) : Option (Option Comment) :=
  let text := (tree.nodeText node).withoutLineEnd
  if text = [] then
    some none
  else do
    match ← tokens.checkedForm? text with
    | none => return none
    | some form =>
        let body ← form.checkedBody? text
        let start := node.row.startByte
        let stop ← tree.text.endOfPart? start text
        let startsLine ← tree.text.checkedStartsLineAt? start
        let region ← tree.index.checkedRegion? start stop
        return some
          { kind := form.kind
            openTag := form.openTag
            closingTag := form.closingTag
            text := String.ofList body
            region := region
            startsLine := startsLine }

def checkedComments? (config : AnnotationConfig) (cancellation : Cancellation) :
    Option (Except DocumentError (List Comment)) :=
  match cancellation.check with
  | .error error => some (.error error)
  | .ok () => do
      let found ← (tree.namedRows [Kinds.comment]).filterMapM (tree.checkedComment? config.comment)
      return .ok (dropRepeats Comment.region (sortByRegion Comment.region found))

theorem checkedComment?_eq (tokens : CommentTokens) (node : Node) :
    tree.checkedComment? tokens node = some (tree.comment? tokens node) := by
  rw [checkedComment?, comment?]
  by_cases isEmpty : (tree.nodeText node).withoutLineEnd = []
  · simp [isEmpty]
  · have hasText : tree.nodeText node ≠ [] := by
      intro blank
      apply isEmpty
      rw [blank]
      rfl
    -- A row with a text has a range of the text, so its first byte is at a character boundary.
    have sliced := slice?_of_nodeText_ne_nil hasText
    have shorter :
        (tree.nodeText node).withoutLineEnd.byteSize ≤ (tree.nodeText node).byteSize := by
      conv_rhs => rw [← (tree.nodeText node).withoutLineEnd_append_lineEnd]
      simp
    obtain ⟨front, rest, split, start, _⟩ := Text.slice?_eq_some_iff.mp sliced
    rw [List.append_assoc] at split
    rw [if_neg isEmpty, if_neg isEmpty, CommentTokens.checkedForm?_eq]
    cases found : tokens.form? (tree.nodeText node).withoutLineEnd with
    | none => rfl
    | some form =>
      have opens := CommentTokens.opens_of_form? found
      simp [CommentForm.checkedBody?_eq opens, Text.endOfPart?_of_slice? sliced shorter,
        Text.checkedStartsLineAt?_eq tree.text split start]

@[simp]
theorem checkedComments?_eq (config : AnnotationConfig) (cancellation : Cancellation) :
    tree.checkedComments? config cancellation = some (tree.comments config cancellation) := by
  cases cancellation with
  | cancelled => rfl
  | live =>
    rw [checkedComments?, filterMapM_eq_some (tree.checkedComment?_eq config.comment)]
    rfl

end SyntaxTree

/-! ## Tags of comments -/

end SourceAnnotations
