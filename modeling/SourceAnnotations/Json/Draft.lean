import SourceAnnotations.Json.Token

/-!
# Drafts

The second step of reading a JSON text: putting its tokens together. A draft is the value a text
holds as far as the text can be followed. Where it cannot be followed the draft says why, and
everything that was still open is closed there. A reader goes through a draft from left to right and
stops at the first fault, so it never sees what comes after one.
-/

namespace SourceAnnotations.Json

/-- What follows the last item of a list or the last member of an object. -/
inductive Ending
  | closed
  | ended
  /-- Something other than a comma or the closing bracket. -/
  | unseparated
  /-- A comma and the closing bracket. -/
  | commaClosed
  /-- A comma and the end of the text. -/
  | commaEnded
deriving DecidableEq, Repr

/-- A value as far as it can be followed. -/
inductive Draft
  /-- No value begins here. -/
  | absent (fault : Fault)
  /-- A word that is none of the three. -/
  | misspelt (fault : Fault)
  | null
  | boolean (value : Bool)
  | number (reading : Except Fault Number) (passing : Except Fault Unit)
  | text (reading : Except Fault String) (passing : Except Fault Unit)
  | list (items : List Draft) (ending : Ending)
  /-- Members are keys and values. A key that is no string is the last, and so is one without a
  colon: in place of its value stands the fault. -/
  | object (members : List (Draft × Draft)) (ending : Ending)
deriving Inhabited

namespace Ending

def listFault? : Ending → Option Fault
  | closed => none
  | ended => some .endInList
  | unseparated => some .expectedCommaOrBracket
  | commaClosed => some .trailingComma
  | commaEnded => some .endInValue

def objectFault? : Ending → Option Fault
  | closed => none
  | ended => some .endInObject
  | unseparated => some .expectedCommaOrBrace
  | commaClosed => some .trailingComma
  | commaEnded => some .endInValue

def passedListFault? : Ending → Option Fault
  | commaClosed => some .expectedValue
  | other => other.listFault?

def passedObjectFault? : Ending → Option Fault
  | commaClosed => some .keyNotString
  | commaEnded => some .endInObject
  | other => other.objectFault?

end Ending

/-! ## Passing over a draft -/

/-- An outcome from the fault that may have been met. -/
def faultOutcome (fault? : Option Fault) : Except Fault Unit :=
  match fault? with
  | some fault => .error fault
  | none => .ok ()

def Draft.passKey : Draft → Except Fault Unit
  | text _ passing => passing
  | _ => .error .keyNotString

mutual

/-- Passing over a value, which need not be of any kind but must be one. -/
def Draft.pass : Draft → Except Fault Unit
  | .absent fault => .error fault
  | .misspelt fault => .error fault
  | .null => .ok ()
  | .boolean _ => .ok ()
  | .number _ passing => passing
  | .text _ passing => passing
  | .list items ending =>
      match passItems items with
      | .ok () => faultOutcome ending.passedListFault?
      | .error fault => .error fault
  | .object members ending =>
      match passMembers members with
      | .ok () => faultOutcome ending.passedObjectFault?
      | .error fault => .error fault

def passItems : List Draft → Except Fault Unit
  | [] => .ok ()
  | item :: rest =>
      match item.pass with
      | .ok () => passItems rest
      | .error fault => .error fault

def passMembers : List (Draft × Draft) → Except Fault Unit
  | [] => .ok ()
  | (key, value) :: rest =>
      match key.passKey with
      | .error fault => .error fault
      | .ok () =>
          match value.pass with
          | .ok () => passMembers rest
          | .error fault => .error fault

end

/-! ## Putting tokens together -/

/-- A container that is still open, with what it holds so far, the latest first. -/
inductive OpenDraft
  | list (items : List Draft)
  | object (members : List (Draft × Draft))
  /-- An object whose last key has been read and waits for its value. -/
  | member (members : List (Draft × Draft)) (key : Draft)

namespace OpenDraft

/-- The container with one more value. An object takes a value only with a key. -/
def add (container : OpenDraft) (value : Draft) : OpenDraft :=
  match container with
  | list items => list (value :: items)
  | object members => object members
  | member members key => object ((key, value) :: members)

def close (container : OpenDraft) (ending : Ending) : Draft :=
  match container with
  | list items => .list items.reverse ending
  | object members => .object members.reverse ending
  | member members key => .object ((key, .absent .endInValue) :: members).reverse ending

end OpenDraft

/-- The draft of a text that cannot be followed beyond a value. -/
def abandon (value : Draft) (around : List OpenDraft) : Draft :=
  around.foldl (fun value container => (container.add value).close .ended) value

/-- What the next token may be. -/
inductive Expecting
  | value
  /-- The first item of a list, or its closing bracket. -/
  | firstItem
  /-- An item after a comma. -/
  | item
  /-- The first key of an object, or its closing brace. -/
  | firstKey
  /-- A key after a comma. -/
  | key
  | colon
  /-- A comma, or the closing bracket of the innermost container. -/
  | separator
deriving DecidableEq

/-- The draft of a text that ends where a token is expected. -/
def atEnd (expecting : Expecting) (around : List OpenDraft) : Draft :=
  match expecting, around with
  | .firstItem, container :: around | .firstKey, container :: around
  | .separator, container :: around => abandon (container.close .ended) around
  | .item, container :: around | .key, container :: around =>
      abandon (container.close .commaEnded) around
  | .colon, around => abandon (.absent .endInObject) around
  | _, around => abandon (.absent .endInValue) around

inductive Progress
  /-- A value is complete; the containers are those around it. -/
  | complete (value : Draft) (around : List OpenDraft)
  | more (expecting : Expecting) (around : List OpenDraft)
  /-- The text cannot be followed any further. -/
  | stopped (draft : Draft)

def Token.asValue (token : Token) (around : List OpenDraft) : Progress :=
  match token with
  | openBracket => .more .firstItem (.list [] :: around)
  | openBrace => .more .firstKey (.object [] :: around)
  | word (.ok .null) => .complete .null around
  | word (.ok (.boolean value)) => .complete (.boolean value) around
  | word (.error fault) => .stopped (abandon (.misspelt fault) around)
  | number reading passing => .complete (.number reading passing) around
  | quoted reading passing => .complete (.text reading passing) around
  | closeBrace | closeBracket | colon | comma | stray =>
      .stopped (abandon (.absent .expectedValue) around)

def Token.asKey (token : Token) (around : List OpenDraft) : Progress :=
  match token, around with
  | quoted reading passing, .object members :: around =>
      .more .colon (.member members (.text reading passing) :: around)
  | _, .object members :: around =>
      let absent := .absent .keyNotString
      .stopped (abandon absent (.member members absent :: around))
  | _, around => .stopped (abandon (.absent .keyNotString) around)

def Token.asSeparator (token : Token) (container : OpenDraft) (around : List OpenDraft) :
    Progress :=
  match token, container with
  | comma, .list _ => .more .item (container :: around)
  | comma, _ => .more .key (container :: around)
  | closeBracket, .list _ => .complete (container.close .closed) around
  | closeBrace, .object _ => .complete (container.close .closed) around
  | _, _ => .stopped (abandon (container.close .unseparated) around)

/-- What a token does, wherever it stands. -/
def Token.progress (token : Token) (expecting : Expecting) (around : List OpenDraft) : Progress :=
  match expecting, token, around with
  | .firstItem, closeBracket, container :: around => .complete (container.close .closed) around
  | .item, closeBracket, container :: around =>
      .stopped (abandon (container.close .commaClosed) around)
  | .firstKey, closeBrace, container :: around => .complete (container.close .closed) around
  | .key, closeBrace, container :: around =>
      .stopped (abandon (container.close .commaClosed) around)
  | .firstKey, token, around | .key, token, around => token.asKey around
  | .colon, colon, around => .more .value around
  | .colon, _, around => .stopped (abandon (.absent .expectedColon) around)
  | .separator, token, container :: around => token.asSeparator container around
  | _, token, around => token.asValue around

/-- The draft that tokens make within open containers, and the tokens left over. -/
def assemble : Expecting → List OpenDraft → List Token → Draft × List Token
  | expecting, around, [] => (atEnd expecting around, [])
  | expecting, around, token :: rest =>
      match token.progress expecting around with
      | .stopped draft => (draft, [])
      | .more expecting around => assemble expecting around rest
      | .complete value [] => (value, rest)
      | .complete value (container :: around) =>
          assemble .separator (container.add value :: around) rest

/-- The draft of a text, and the tokens after the value. -/
def readDraft (text : Text) : Draft × List Token :=
  assemble .value [] (tokens text)

end SourceAnnotations.Json
