import Mathlib.Data.List.Basic
import SourceAnnotations.Comment.Collect

/-!
# Forms of comments in C#

The tokens of C# begin with one another: a documentation line opens like a line comment, and a
documentation block like a block.  Which form a text has is told here by what the text begins with.
A text that is long enough for both delimiters of its form, and ends with the closing one, is the
body between the two.
-/

namespace SourceAnnotations

namespace CommentTokens

/-- The form of a comment in C#, told by what its text begins with. -/
inductive IsForm (text : Text) : CommentForm → Prop
  | docBlock (opens : "/**".toList <+: text) (isLong : text ≠ "/**/".toList) :
      IsForm text ⟨.documentation, "/**", "*/"⟩
  | block (opens : "/*".toList <+: text)
      (isPlain : ¬ ("/**".toList <+: text ∧ text ≠ "/**/".toList)) :
      IsForm text ⟨.block, "/*", "*/"⟩
  | docLine (opens : "///".toList <+: text) (isPlain : ¬ "////".toList <+: text) :
      IsForm text ⟨.documentation, "///", ""⟩
  | line (opens : "//".toList <+: text)
      (isPlain : ¬ ("///".toList <+: text ∧ ¬ "////".toList <+: text)) :
      IsForm text ⟨.singleLine, "//", ""⟩

variable {text : Text}

/-! ## The three tests -/

theorem not_block_of_line (opens : "//".toList <+: text) : ¬ "/*".toList <+: text := by
  obtain ⟨rest, rfl⟩ := opens
  simp

theorem block_of_docBlock (opens : "/**".toList <+: text) : "/*".toList <+: text :=
  List.IsPrefix.trans ⟨['*'], rfl⟩ opens

theorem line_of_docLine (opens : "///".toList <+: text) : "//".toList <+: text :=
  List.IsPrefix.trans ⟨['/'], rfl⟩ opens

theorem csharp_isDocBlock :
    csharp.isDocBlock text = true ↔ "/**".toList <+: text ∧ text ≠ "/**/".toList := by
  simp [isDocBlock, csharp, withDocTokens]

theorem csharp_isDocLine :
    csharp.isDocLine text = true ↔ "///".toList <+: text ∧ ¬ "////".toList <+: text := by
  cases found : "///".toList.isPrefixOf? text with
  | none =>
      have absent : ¬ "///".toList <+: text := by
        rintro ⟨rest, spelt⟩
        rw [List.isPrefixOf?_eq_some_iff_append_eq.mpr spelt] at found
        cases found
      simp only [isDocLine, csharp, withDocTokens, found, Bool.and_false, absent, false_and,
        Bool.false_eq_true]
  | some rest =>
      have isDocLine_eq : csharp.isDocLine text = (rest.head? ≠ some '/' : Bool) := by
        simp only [isDocLine, csharp, withDocTokens, found]
        rfl
      obtain rfl := List.isPrefixOf?_eq_some_iff_append_eq.mp found
      rw [isDocLine_eq]
      cases rest with
      | nil => simp
      | cons head tail => simpa using not_congr (eq_comm (a := head))

/-! ## The form of a text -/

theorem csharp_blockForm? :
    csharp.blockForm? text =
      if "/*".toList.isPrefixOf text then
        if csharp.isDocBlock text then some ⟨.documentation, "/**", "*/"⟩
        else some ⟨.block, "/*", "*/"⟩
      else none :=
  rfl

theorem csharp_docLineForm? :
    csharp.docLineForm? text =
      if csharp.isDocLine text then some ⟨.documentation, "///", ""⟩ else none :=
  rfl

theorem csharp_lineForm? :
    csharp.lineForm? text =
      if "//".toList.isPrefixOf text then some ⟨.singleLine, "//", ""⟩ else none :=
  rfl

theorem csharp_form? :
    csharp.form? text =
      if "/*".toList.isPrefixOf text then
        if csharp.isDocBlock text then some ⟨.documentation, "/**", "*/"⟩
        else some ⟨.block, "/*", "*/"⟩
      else if csharp.isDocLine text then some ⟨.documentation, "///", ""⟩
      else if "//".toList.isPrefixOf text then some ⟨.singleLine, "//", ""⟩
      else none := by
  rw [form?, csharp_blockForm?, csharp_docLineForm?, csharp_lineForm?]
  cases "/*".toList.isPrefixOf text with
  | true => cases csharp.isDocBlock text <;> rfl
  | false => cases csharp.isDocLine text <;> rfl

theorem csharp_form?_eq_some_iff {form : CommentForm} :
    csharp.form? text = some form ↔ IsForm text form := by
  rw [csharp_form?]
  constructor
  · intro found
    split at found
    · next opens =>
      split at found
      · next isDoc =>
        obtain ⟨opensDoc, isLong⟩ := csharp_isDocBlock.mp isDoc
        cases found
        exact .docBlock opensDoc isLong
      · next isPlain =>
        cases found
        exact .block (List.isPrefixOf_iff_prefix.mp opens) (isPlain ∘ csharp_isDocBlock.mpr)
    · split at found
      · next isDoc =>
        obtain ⟨opensDoc, isPlain⟩ := csharp_isDocLine.mp isDoc
        cases found
        exact .docLine opensDoc isPlain
      · next isPlain =>
        split at found
        · next opens =>
          cases found
          exact .line (List.isPrefixOf_iff_prefix.mp opens) (isPlain ∘ csharp_isDocLine.mpr)
        · cases found
  · intro isForm
    cases isForm with
    | docBlock opens isLong =>
        rw [if_pos (List.isPrefixOf_iff_prefix.mpr (block_of_docBlock opens)),
          if_pos (csharp_isDocBlock.mpr ⟨opens, isLong⟩)]
    | block opens isPlain =>
        rw [if_pos (List.isPrefixOf_iff_prefix.mpr opens), if_neg (isPlain ∘ csharp_isDocBlock.mp)]
    | docLine opens isPlain =>
        rw [if_neg (not_block_of_line (line_of_docLine opens) ∘ List.isPrefixOf_iff_prefix.mp),
          if_pos (csharp_isDocLine.mpr ⟨opens, isPlain⟩)]
    | line opens isPlain =>
        rw [if_neg (not_block_of_line opens ∘ List.isPrefixOf_iff_prefix.mp),
          if_neg (isPlain ∘ csharp_isDocLine.mp), if_pos (List.isPrefixOf_iff_prefix.mpr opens)]

/-- An empty block is no documentation, and neither is a line of four slashes. -/
example : (csharp.form? "/**/".toList).map CommentForm.kind = some .block ∧
    (csharp.form? "////".toList).map CommentForm.kind = some .singleLine := by
  decide

/-- Every text that opens a line comment or a block has a form. -/
theorem exists_isForm (opens : "//".toList <+: text ∨ "/*".toList <+: text) :
    ∃ form, IsForm text form := by
  rcases opens with opens | opens
  · by_cases isDoc : "///".toList <+: text ∧ ¬ "////".toList <+: text
    · exact ⟨_, .docLine isDoc.1 isDoc.2⟩
    · exact ⟨_, .line opens isDoc⟩
  · by_cases isDoc : "/**".toList <+: text ∧ text ≠ "/**/".toList
    · exact ⟨_, .docBlock isDoc.1 isDoc.2⟩
    · exact ⟨_, .block opens isDoc⟩

end CommentTokens

/-! ## Kinds -/

/-- A text that begins with three slashes and no more, or with a slash and two stars, where the four
characters of an empty block do not count. -/
def Text.IsDocumentation (text : Text) : Prop :=
  ("///".toList <+: text ∧ ¬ "////".toList <+: text) ∨
    ("/**".toList <+: text ∧ text ≠ "/**/".toList)

namespace CommentTokens.IsForm

variable {text : Text} {form : CommentForm}

/-- The text alone tells the kind of its form and how it closes. -/
theorem kind_iff (isForm : IsForm text form) :
    (form.kind = .documentation ↔ text.IsDocumentation) ∧
      (form.kind = .block ↔ ¬ text.IsDocumentation ∧ "/*".toList <+: text) ∧
        (form.kind = .singleLine ↔ ¬ text.IsDocumentation ∧ "//".toList <+: text) ∧
          (form.closingTag = "*/" ↔ "/*".toList <+: text) := by
  have notLine : "/*".toList <+: text → ¬ "//".toList <+: text :=
    fun block line => not_block_of_line line block
  cases isForm with
  | docBlock opens isLong =>
      have isDocumentation : text.IsDocumentation := .inr ⟨opens, isLong⟩
      simp only [isDocumentation, block_of_docBlock opens, reduceCtorEq, not_true_eq_false,
        false_and, and_self]
  | block opens isPlain =>
      have notDocumentation : ¬ text.IsDocumentation := by
        rintro (isDoc | isDoc)
        · exact notLine opens (line_of_docLine isDoc.1)
        · exact isPlain isDoc
      simp only [notDocumentation, opens, notLine opens, reduceCtorEq, not_false_eq_true, and_false,
        and_self]
  | docLine opens isPlain =>
      have isDocumentation : text.IsDocumentation := .inl ⟨opens, isPlain⟩
      simp only [isDocumentation, not_block_of_line (line_of_docLine opens), reduceCtorEq,
        String.reduceEq, not_true_eq_false, false_and, and_self]
  | line opens isPlain =>
      have notDocumentation : ¬ text.IsDocumentation := by
        rintro (isDoc | isDoc)
        · exact isPlain isDoc
        · exact not_block_of_line opens (block_of_docBlock isDoc.1)
      simp only [notDocumentation, opens, not_block_of_line opens, reduceCtorEq, String.reduceEq,
        not_false_eq_true, and_false, and_self]

end CommentTokens.IsForm

/-! ## Delimiters and body -/

/-- A text that begins with one part and ends with another, and is long enough for both, is what
the two have between them. -/
theorem Text.exists_between {front back text : Text} (isPrefix : front <+: text)
    (isSuffix : back <:+ text) (fits : front.length + back.length ≤ text.length) :
    ∃ inner, text = front ++ inner ++ back := by
  obtain ⟨rest, rfl⟩ := isPrefix
  have shorter : back.length ≤ rest.length := by
    rw [List.length_append] at fits
    exact Nat.le_of_add_le_add_left fits
  obtain ⟨inner, rfl⟩ :=
    List.suffix_of_suffix_length_le isSuffix (List.suffix_append front rest) shorter
  exact ⟨inner, (List.append_assoc front inner back).symm⟩

/-- The body is what stands between the delimiters. -/
theorem CommentForm.body_eq {form : CommentForm} {inner : Text} :
    form.body (form.openTag.toList ++ inner ++ form.closingTag.toList) = inner := by
  have opened :
      form.openTag.toList.isPrefixOf?
          (form.openTag.toList ++ inner ++ form.closingTag.toList) =
        some (inner ++ form.closingTag.toList) := by
    rw [List.isPrefixOf?_eq_some_iff_append_eq, List.append_assoc]
  rw [body, opened, Option.getD_some]
  by_cases isLine : form.closingTag = ""
  · rw [if_pos isLine, isLine, String.toList_empty, List.append_nil]
  · have closed :
        form.closingTag.toList.isSuffixOf? (inner ++ form.closingTag.toList) = some inner := by
      rw [List.isSuffixOf?_eq_some_iff_append_eq]
    rw [if_neg isLine, closed, Option.getD_some]

/-- A line comment, or a block that ends with its delimiter and is long enough for both. -/
def Text.IsClosed (text : Text) : Prop :=
  "//".toList <+: text ∨
    ("/*".toList <+: text ∧ "*/".toList <:+ text ∧ 4 ≤ text.length)

/-- A closed text is what its delimiters and its body spell. -/
theorem CommentTokens.IsForm.spells {text : Text} {form : CommentForm} (isForm : IsForm text form)
    (closed : text.IsClosed) :
    form.openTag.toList ++ form.body text ++ form.closingTag.toList = text := by
  suffices ∃ inner, text = form.openTag.toList ++ inner ++ form.closingTag.toList by
    obtain ⟨inner, spelt⟩ := this
    rw [spelt, form.body_eq]
  cases isForm with
  | docBlock opens isLong =>
      rcases closed with isLine | ⟨_, isSuffix, fits⟩
      · exact absurd (block_of_docBlock opens) (not_block_of_line isLine)
      · -- With four characters the delimiters would share a star.
        refine Text.exists_between opens isSuffix (Nat.lt_of_le_of_ne fits fun short => isLong ?_)
        obtain ⟨rest, rfl⟩ := opens
        obtain ⟨last, rfl⟩ : ∃ last, rest = [last] := by
          rw [List.length_append] at short
          exact List.length_eq_one_iff.mp (Nat.add_left_cancel short).symm
        obtain ⟨front, spelt⟩ := isSuffix
        have isSlash : some '/' = some last := by
          simpa using congrArg List.getLast? spelt
        obtain rfl := Option.some.inj isSlash
        rfl
  | block opens _ =>
      rcases closed with isLine | ⟨_, isSuffix, fits⟩
      · exact absurd opens (not_block_of_line isLine)
      · exact Text.exists_between opens isSuffix fits
  | docLine opens _ =>
      obtain ⟨rest, rfl⟩ := opens
      exact ⟨rest, (List.append_nil _).symm⟩
  | line opens _ =>
      obtain ⟨rest, rfl⟩ := opens
      exact ⟨rest, (List.append_nil _).symm⟩

end SourceAnnotations
