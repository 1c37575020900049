import SourceAnnotations.Json.Number

/-!
# Tokens of a JSON text

A JSON text is read in two steps, of which this is the first: cutting it into tokens. A token that
is not well formed is the last one. A string or a number may be read for its value or only passed
over, and reading is stricter than passing: it refuses lone surrogates and numbers out of range, so
such a token has both answers.
-/

namespace SourceAnnotations.Json

inductive Word
  | null
  | boolean (value : Bool)
deriving DecidableEq, Repr

/-- A token. `reading` is its value where a value is wanted, `passing` tells whether it can be
passed over. -/
inductive Token
  | openBrace
  | closeBrace
  | openBracket
  | closeBracket
  | colon
  | comma
  | word (reading : Except Fault Word)
  | number (reading : Except Fault Number) (passing : Except Fault Unit)
  | quoted (reading : Except Fault String) (passing : Except Fault Unit)
  /-- A character with which no token begins. -/
  | stray

/-! ## Words -/

def afterLetters : Text → Text → Except Fault Text
  | [], text => .ok text
  | _ :: _, [] => .error .endInValue
  | letter :: letters, head :: tail =>
      if head = letter then afterLetters letters tail else .error .expectedWord

/-! ## Strings -/

def shortEscape? (letter : Char) : Option Char :=
  match letter with
  | '"' => some '"'
  | '\\' => some '\\'
  | '/' => some '/'
  | 'b' => some '\x08'
  | 'f' => some '\x0c'
  | 'n' => some '\n'
  | 'r' => some '\r'
  | 't' => some '\t'
  | _ => none

def hexDigit? (c : Char) : Option Nat :=
  if c.isDigit then some (c.toNat - '0'.toNat)
  else if 'a' ≤ c ∧ c ≤ 'f' then some (c.toNat - 'a'.toNat + 10)
  else if 'A' ≤ c ∧ c ≤ 'F' then some (c.toNat - 'A'.toNat + 10)
  else none

/-- Whether four more bytes follow, as an escape by four hexadecimal digits needs. -/
def hasFourBytes (text : Text) : Bool :=
  4 ≤ Text.byteSize (text.take 4)

/-- Whether a code unit is the first of a surrogate pair. -/
def isHighSurrogate (unit : Nat) : Bool :=
  0xD800 ≤ unit && unit ≤ 0xDBFF

/-- Whether a code unit is the second of a surrogate pair. -/
def isLowSurrogate (unit : Nat) : Bool :=
  0xDC00 ≤ unit && unit ≤ 0xDFFF

def surrogatePair (high low : Nat) : Char :=
  Char.ofNat (0x10000 + (high - 0xD800) * 0x400 + (low - 0xDC00))

/-- Where the reading of a string stands. `value` is what the hexadecimal digits of an escape have
made so far, and `more` how many of them follow the next one. -/
inductive StringState
  | plain
  | escaped
  | hex (value more : Nat)
  | high (unit : Nat)
  /-- After the backslash that follows such a unit. -/
  | highEscaped (unit : Nat)
  /-- In the hexadecimal digits of the second unit. -/
  | low (unit value more : Nat)

/-- What follows a complete unit: the state to go on in, and the character if the unit is one. -/
def completeUnit (unit : Nat) : Except Fault (StringState × Text) :=
  if isLowSurrogate unit then .error .loneSurrogate
  else if isHighSurrogate unit then .ok (.high unit, [])
  else .ok (.plain, [Char.ofNat unit])

/-- What one character does to the reading of a string: the next state and the characters that have
become known. The closing quote is not among these characters. -/
def StringState.next (state : StringState) (c : Char) (rest : Text) :
    Except Fault (StringState × Text) :=
  match state with
  | plain =>
      if c = '\\' then .ok (escaped, [])
      else if c.toNat < 0x20 then .error .controlCharacter
      else .ok (plain, [c])
  | escaped =>
      match shortEscape? c with
      | some meant => .ok (plain, [meant])
      | none =>
          if c ≠ 'u' then .error .invalidEscape
          else if hasFourBytes rest then .ok (hex 0 3, [])
          else .error .endInString
  | hex value more =>
      match hexDigit? c, more with
      | none, _ => .error .invalidEscape
      | some digit, 0 => completeUnit (16 * value + digit)
      | some digit, more + 1 => .ok (hex (16 * value + digit) more, [])
  | high unit => if c = '\\' then .ok (highEscaped unit, []) else .error .unfinishedSurrogate
  | highEscaped unit =>
      if c ≠ 'u' then .error .unfinishedSurrogate
      else if hasFourBytes rest then .ok (low unit 0 3, [])
      else .error .endInString
  | low unit value more =>
      match hexDigit? c, more with
      | none, _ => .error .invalidEscape
      | some digit, 0 =>
          let second := 16 * value + digit
          if isLowSurrogate second then .ok (plain, [surrogatePair unit second])
          else .error .loneSurrogate
      | some digit, more + 1 => .ok (low unit (16 * value + digit) more, [])

def StringState.isClosedBy (state : StringState) (c : Char) : Bool :=
  match state with
  | plain => c = '"'
  | _ => false

/-- The contents of a string whose opening quote has been read. -/
def readString (state : StringState) : Text → Except Fault Text
  | [] => .error .endInString
  | c :: rest =>
      if state.isClosedBy c then
        .ok []
      else
        match state.next c rest with
        | .error fault => .error fault
        | .ok (state, known) => (readString state rest).map (known ++ ·)

inductive PassState
  | plain
  | escaped
  | hex (more : Nat)

/-- What one character does to the passing over a string. -/
def PassState.next (state : PassState) (c : Char) (rest : Text) : Except Fault PassState :=
  match state with
  | plain =>
      if c = '\\' then .ok escaped
      else if c.toNat < 0x20 then .error .controlCharacter
      else .ok plain
  | escaped =>
      if (shortEscape? c).isSome then .ok plain
      else if c ≠ 'u' then .error .invalidEscape
      else if hasFourBytes rest then .ok (hex 3)
      else .error .endInString
  | hex more =>
      match hexDigit? c, more with
      | none, _ => .error .invalidEscape
      | some _, 0 => .ok plain
      | some _, more + 1 => .ok (hex more)

def PassState.isClosedBy (state : PassState) (c : Char) : Bool :=
  match state with
  | plain => c = '"'
  | _ => false

/-- The text after a string whose opening quote has been read. -/
def passString (state : PassState) : Text → Except Fault Text
  | [] => .error .endInString
  | c :: rest =>
      if state.isClosedBy c then
        .ok rest
      else
        match state.next c rest with
        | .error fault => .error fault
        | .ok state => passString state rest

/-! ## Tokens -/

def isBlank (c : Char) : Bool :=
  c = ' ' || c = '\t' || c = '\n' || c = '\r'

/-- The token of a word whose first letter has been read. -/
def wordToken (letters : String) (word : Word) (rest : Text) : Token × Text :=
  match afterLetters letters.toList rest with
  | .ok rest => (.word (.ok word), rest)
  | .error fault => (.word (.error fault), [])

/-- The token of a string whose opening quote has been read. -/
def stringToken (rest : Text) : Token × Text :=
  let reading := (readString .plain rest).map String.ofList
  match passString .plain rest with
  | .ok after => (.quoted reading (.ok ()), after)
  | .error fault => (.quoted reading (.error fault), [])

def numberToken (text : Text) : Token × Text :=
  match scanNumeral text with
  | .ok (numeral, after) => (.number numeral.value (.ok ()), after)
  | .error isAtEnd =>
      (.number (.error (if isAtEnd then .endInValue else .invalidNumber)) (.error .invalidNumber),
        [])

/-- The token that begins with a character, and the text after it. After a token that is not well
formed nothing is left. -/
def tokenAt (head : Char) (tail : Text) : Token × Text :=
  match head with
  | '\x7b' => (.openBrace, tail)
  | '\x7d' => (.closeBrace, tail)
  | '[' => (.openBracket, tail)
  | ']' => (.closeBracket, tail)
  | ':' => (.colon, tail)
  | ',' => (.comma, tail)
  | 'n' => wordToken "ull" .null tail
  | 't' => wordToken "rue" (.boolean true) tail
  | 'f' => wordToken "alse" (.boolean false) tail
  | '"' => stringToken tail
  | _ => if head = '-' || head.isDigit then numberToken (head :: tail) else (.stray, [])

/-! ## Cutting a text -/

theorem passString_length {state : PassState} {text after : Text}
    (passed : passString state text = .ok after) : after.length < text.length := by
  induction text generalizing state with
  | nil => simp [passString] at passed
  | cons head tail inductionHypothesis =>
    rw [passString] at passed
    split at passed
    · injection passed with equality
      simp [equality]
    · split at passed
      · cases passed
      · exact Nat.lt_succ_of_lt (inductionHypothesis passed)

theorem afterLetters_length {letters text after : Text}
    (spelled : afterLetters letters text = .ok after) : after.length ≤ text.length := by
  induction letters generalizing text with
  | nil =>
    injection spelled with equality
    simp [equality]
  | cons letter letters inductionHypothesis =>
    cases text with
    | nil => simp [afterLetters] at spelled
    | cons head tail =>
      rw [afterLetters] at spelled
      split at spelled
      · exact Nat.le_succ_of_le (inductionHypothesis spelled)
      · cases spelled

theorem wordToken_length (letters : String) (word : Word) (rest : Text) :
    (wordToken letters word rest).2.length ≤ rest.length := by
  unfold wordToken
  split
  · exact afterLetters_length ‹_›
  · simp

theorem stringToken_length (rest : Text) : (stringToken rest).2.length ≤ rest.length := by
  unfold stringToken
  split
  · exact Nat.le_of_lt (passString_length ‹_›)
  · simp

theorem numberToken_length (head : Char) (tail : Text) :
    (numberToken (head :: tail)).2.length ≤ tail.length := by
  unfold numberToken
  split
  · exact Nat.le_of_lt_succ (scanNumeral_length ‹_›)
  · simp

theorem tokenAt_length (head : Char) (tail : Text) :
    (tokenAt head tail).2.length ≤ tail.length := by
  unfold tokenAt
  split <;> first
    | exact Nat.le_refl _
    | exact wordToken_length ..
    | exact stringToken_length ..
    | (split <;> first | exact numberToken_length .. | simp)

/-- The tokens of a text, in order, up to the first that is not well formed. -/
def tokens (text : Text) : List Token :=
  match _ : text.dropWhile isBlank with
  | [] => []
  | head :: tail => (tokenAt head tail).1 :: tokens (tokenAt head tail).2
termination_by text.length
decreasing_by
  have shorter := length_dropWhile_le isBlank text
  have restShorter := tokenAt_length head tail
  rw [‹text.dropWhile isBlank = head :: tail›] at shorter
  simp only [List.length_cons] at shorter
  omega

end SourceAnnotations.Json
