import SourceAnnotations.Json.Draft

/-!
# JSON documents

A document is a JSON text taken apart: what is escaped in its strings and how, how its numbers are
spelt, and which members its objects have, in which order.  Only the blanks between the lexemes are
not part of it.  A number may be of any size and a string may have lone surrogates.  The draft of a
document is what the reader makes of it.
-/

namespace SourceAnnotations.Json

/-! ## Strings -/

structure HexDigit where
  letter : Char
  value : Nat
  means : hexDigit? letter = some value

/-- A character of a string as it is written: as it is, escaped by a letter, or escaped by the four
hexadecimal digits of a code unit. -/
inductive Piece
  | plain (c : Char) (isPlain : c ≠ '"' ∧ c ≠ '\\' ∧ 0x20 ≤ c.toNat)
  | short (letter meant : Char) (means : shortEscape? letter = some meant)
  | unit (first second third fourth : HexDigit)

def Piece.text : Piece → Text
  | plain c _ => [c]
  | short letter _ _ => ['\\', letter]
  | unit first second third fourth =>
      ['\\', 'u', first.letter, second.letter, third.letter, fourth.letter]

/-- The code unit of four hexadecimal digits. -/
def unitOf (first second third fourth : HexDigit) : Nat :=
  16 * (16 * (16 * first.value + second.value) + third.value) + fourth.value

/-- A string as it is written. -/
abbrev Literal := List Piece

namespace Literal

/-- The text between the quotes. -/
def text (literal : Literal) : Text :=
  literal.flatMap Piece.text

/-- The characters that the string means, unless it has a surrogate without its partner. -/
def reading : Literal → Except Fault Text
  | [] => .ok []
  | .plain c _ :: rest => (reading rest).map (c :: ·)
  | .short _ meant _ :: rest => (reading rest).map (meant :: ·)
  | .unit first second third fourth :: rest =>
      let unit := unitOf first second third fourth
      if isLowSurrogate unit then .error .loneSurrogate
      else if isHighSurrogate unit then
        match rest with
        | .unit first second third fourth :: rest =>
            let low := unitOf first second third fourth
            if isLowSurrogate low then (reading rest).map (surrogatePair unit low :: ·)
            else .error .loneSurrogate
        | _ => .error .unfinishedSurrogate
      else (reading rest).map (Char.ofNat unit :: ·)

/-- The literal means the string. -/
def Means (literal : Literal) (value : String) : Prop :=
  literal.reading = .ok value.toList

instance (literal : Literal) (value : String) : Decidable (literal.Means value) :=
  match read : literal.reading with
  | .ok characters =>
      decidable_of_iff (characters = value.toList) <| by
        rw [Means, read, Except.ok.injEq]
  | .error _ => isFalse (by rw [Means, read]; nofun)

def draft (literal : Literal) : Draft :=
  .text (literal.reading.map String.ofList) (.ok ())

end Literal

/-! ## Numbers -/

/-- The digits that some text consists of are at least one. -/
def AreDigits (text : Text) : Prop :=
  text ≠ [] ∧ ∀ c ∈ text, c.isDigit

structure WrittenExponent where
  mark : Char
  sign : Option Char
  digits : Text
  isMark : mark = 'e' ∨ mark = 'E'
  isSign : ∀ c ∈ sign, c = '+' ∨ c = '-'
  areDigits : AreDigits digits

namespace WrittenExponent

def text (exponent : WrittenExponent) : Text :=
  exponent.mark :: (exponent.sign.toList ++ exponent.digits)

def value (exponent : WrittenExponent) : Int :=
  let size : Int := Nat.ofDigitChars 10 exponent.digits 0
  if exponent.sign = some '-' then -size else size

end WrittenExponent

/-- A number as it is written. -/
structure WrittenNumber where
  isNegative : Bool
  whole : Text
  /-- The digits after the point; there are none where no point is written. -/
  fraction : Text
  exponent : Option WrittenExponent
  areDigits : AreDigits whole
  noLeadingZero : hasLeadingZero whole = false
  areFractionDigits : ∀ c ∈ fraction, c.isDigit

namespace WrittenNumber

def fractionText (number : WrittenNumber) : Text :=
  if number.fraction = [] then [] else '.' :: number.fraction

def exponentText (number : WrittenNumber) : Text :=
  (number.exponent.map WrittenExponent.text).getD []

def text (number : WrittenNumber) : Text :=
  (if number.isNegative then ['-'] else []) ++
    (number.whole ++ (number.fractionText ++ number.exponentText))

def numeral (number : WrittenNumber) : Numeral :=
  ⟨number.isNegative, number.whole, number.fraction, number.exponent.map WrittenExponent.value⟩

end WrittenNumber

/-! ## Documents -/

inductive Document
  | null
  | boolean (value : Bool)
  | number (written : WrittenNumber)
  | text (literal : Literal)
  | list (items : List Document)
  | object (members : List (Literal × Document))

namespace Document

/-- What holds of a document when it holds of its items or of the values of its members holds of
every document. -/
@[induction_eliminator]
theorem induction {motive : Document → Prop} (null : motive .null)
    (boolean : ∀ value, motive (.boolean value)) (number : ∀ written, motive (.number written))
    (text : ∀ literal, motive (.text literal))
    (list : ∀ items, (∀ item ∈ items, motive item) → motive (.list items))
    (object : ∀ members, (∀ member ∈ members, motive member.2) → motive (.object members)) :
    (document : Document) → motive document
  | .null => null
  | .boolean value => boolean value
  | .number written => number written
  | .text literal => text literal
  | .list items =>
      list items fun item _ => induction null boolean number text list object item
  | .object members =>
      object members fun member _ => induction null boolean number text list object member.2
termination_by document => sizeOf document
decreasing_by
  · have smaller := List.sizeOf_lt_of_mem ‹item ∈ items›
    rw [Document.list.sizeOf_spec]
    omega
  · have smaller := List.sizeOf_lt_of_mem ‹member ∈ members›
    obtain ⟨key, value⟩ := member
    change sizeOf value < _
    rw [Prod.mk.sizeOf_spec] at smaller
    rw [Document.object.sizeOf_spec]
    omega

end Document

/-! ## Lexemes -/

inductive Lexeme
  | openBrace
  | closeBrace
  | openBracket
  | closeBracket
  | colon
  | comma
  | null
  | boolean (value : Bool)
  | number (written : WrittenNumber)
  | quoted (literal : Literal)

namespace Lexeme

def text : Lexeme → Text
  | openBrace => ['\x7b']
  | closeBrace => ['\x7d']
  | openBracket => ['[']
  | closeBracket => [']']
  | colon => [':']
  | comma => [',']
  | null => "null".toList
  | boolean true => "true".toList
  | boolean false => "false".toList
  | number written => written.text
  | quoted literal => '"' :: (literal.text ++ ['"'])

def token : Lexeme → Token
  | openBrace => .openBrace
  | closeBrace => .closeBrace
  | openBracket => .openBracket
  | closeBracket => .closeBracket
  | colon => .colon
  | comma => .comma
  | null => .word (.ok .null)
  | boolean value => .word (.ok (.boolean value))
  | number written => .number written.numeral.value (.ok ())
  | quoted literal => .quoted (literal.reading.map String.ofList) (.ok ())

def isNumber : Lexeme → Bool
  | number _ => true
  | _ => false

/-- Whether a lexeme stands between values or behind the last of them. -/
def isSeparator : Lexeme → Bool
  | closeBrace | closeBracket | comma => true
  | _ => false

end Lexeme

mutual

def Document.lexemes : Document → List Lexeme
  | .null => [.null]
  | .boolean value => [.boolean value]
  | .number written => [.number written]
  | .text literal => [.quoted literal]
  | .list items => .openBracket :: itemLexemes items
  | .object members => .openBrace :: memberLexemes members

/-- The items of a list, with commas between them, and the closing bracket. -/
def itemLexemes : List Document → List Lexeme
  | [] => [.closeBracket]
  | [item] => item.lexemes ++ [.closeBracket]
  | item :: next :: rest => item.lexemes ++ .comma :: itemLexemes (next :: rest)

/-- The members of an object, with commas between them, and the closing brace. -/
def memberLexemes : List (Literal × Document) → List Lexeme
  | [] => [.closeBrace]
  | [(key, value)] => .quoted key :: .colon :: (value.lexemes ++ [.closeBrace])
  | (key, value) :: next :: rest =>
      .quoted key :: .colon :: (value.lexemes ++ .comma :: memberLexemes (next :: rest))

end

/-- The text consists of the lexemes, with blanks around them as one likes. -/
inductive Spells : List Lexeme → Text → Prop
  | ended {blanks : Text} (areBlank : ∀ c ∈ blanks, isBlank c) : Spells [] blanks
  | lexeme {blanks text : Text} {lexeme : Lexeme} {lexemes : List Lexeme}
      (areBlank : ∀ c ∈ blanks, isBlank c) (rest : Spells lexemes text) :
      Spells (lexeme :: lexemes) (blanks ++ (lexeme.text ++ text))

/-- The document is written as the text. -/
def Document.IsWrittenAs (document : Document) (text : Text) : Prop :=
  Spells document.lexemes text

/-- The text of a document without blanks. -/
def Document.compact (document : Document) : Text :=
  document.lexemes.flatMap Lexeme.text

theorem Document.isWrittenAs_compact (document : Document) :
    document.IsWrittenAs document.compact := by
  rw [IsWrittenAs, compact]
  induction document.lexemes with
  | nil => exact .ended (List.forall_mem_nil _)
  | cons lexeme lexemes inductionHypothesis =>
      exact Spells.lexeme (List.forall_mem_nil _) inductionHypothesis

/-! ## Drafts -/

mutual

def Document.draft : Document → Draft
  | .null => .null
  | .boolean value => .boolean value
  | .number written => .number written.numeral.value (.ok ())
  | .text literal => literal.draft
  | .list items => .list (itemDrafts items) .closed
  | .object members => .object (memberDrafts members) .closed

def itemDrafts : List Document → List Draft
  | [] => []
  | item :: rest => item.draft :: itemDrafts rest

def memberDrafts : List (Literal × Document) → List (Draft × Draft)
  | [] => []
  | (key, value) :: rest => (key.draft, value.draft) :: memberDrafts rest

end

theorem itemDrafts_eq (items : List Document) : itemDrafts items = items.map Document.draft := by
  induction items with
  | nil => rfl
  | cons item rest inductionHypothesis =>
      rw [itemDrafts, inductionHypothesis, List.map_cons]

/-- A well-formed value can be passed over, whatever it is. -/
theorem Document.pass_draft (document : Document) : document.draft.pass = .ok () := by
  induction document with
  | null => rfl
  | boolean value => rfl
  | number written => rfl
  | text literal => rfl
  | list items inductionHypothesis =>
      have all : passItems (itemDrafts items) = .ok () := by
        induction items with
        | nil => rfl
        | cons item rest inductionOnRest =>
            obtain ⟨here, later⟩ := List.forall_mem_cons.mp inductionHypothesis
            rw [itemDrafts, passItems, here]
            exact inductionOnRest later
      rw [draft, Draft.pass, all]
      rfl
  | object members inductionHypothesis =>
      have all : passMembers (memberDrafts members) = .ok () := by
        induction members with
        | nil => rfl
        | cons member rest inductionOnRest =>
            obtain ⟨here, later⟩ := List.forall_mem_cons.mp inductionHypothesis
            rw [memberDrafts, passMembers, Literal.draft, Draft.passKey, here]
            exact inductionOnRest later
      rw [draft, Draft.pass, all]
      rfl

end SourceAnnotations.Json
