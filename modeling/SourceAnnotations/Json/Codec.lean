import SourceAnnotations.Json.Draft
import SourceAnnotations.Json.Value

/-!
# Codecs

A codec says how values of one type are written as JSON and how they are read back. A record is
written as an object of its fields; it is read from an object whose members stand in any order,
unknown ones among them, or from the list of its fields in their declared order. A variant is
written as its name; it is read from its name or from an object whose only member has that name as
key and null as value. Reading reports the first thing that is wrong, from left to right.
-/

namespace SourceAnnotations.Json

abbrev Reading (α : Type) := Except DecodeError α

/-- How values of a type are written and read. -/
structure Codec (α : Type) where
  write : α → Value
  read : Draft → Reading α

/-! ## Simple values -/

/-- The error of finding a draft where something else is wanted. -/
def unexpected (draft : Draft) (wanted : String) : DecodeError :=
  match draft with
  | .absent fault => .malformed fault
  | .misspelt fault => .malformed fault
  | .null => .wrongType .null wanted
  | .boolean value => .wrongType (.boolean value) wanted
  | .number (.ok number) _ => .wrongType number.found wanted
  | .number (.error fault) _ => .malformed fault
  | .text (.ok value) _ => .wrongType (.text value) wanted
  | .text (.error fault) _ => .malformed fault
  | .list _ _ => .wrongType .list wanted
  | .object _ _ => .wrongType .object wanted

/-- A fault, if there is one, as a decode error. -/
def refuse (fault? : Option Fault) : Reading Unit :=
  match fault? with
  | some fault => .error (.malformed fault)
  | none => .ok ()

/-- Passing over a value that is not wanted. -/
def passOver (draft : Draft) : Reading Unit :=
  draft.pass.mapError .malformed

def readBoolean : Draft → Reading Bool
  | .boolean value => .ok value
  | draft => .error (unexpected draft "a boolean")

def readText : Draft → Reading String
  | .text (.ok value) _ => .ok value
  | draft => .error (unexpected draft "a string")

def readNatural : Draft → Reading Nat
  | .number (.ok (.natural value)) _ => .ok value
  | .number (.ok (.negative magnitude)) _ =>
      .error (.wrongValue (Number.negative magnitude).found "usize")
  | draft => .error (unexpected draft "usize")

def readNull : Draft → Reading Unit
  | .null => .ok ()
  | draft => .error (unexpected draft "unit")

namespace Codec

def boolean : Codec Bool := ⟨.boolean, readBoolean⟩

def text : Codec String := ⟨.text, readText⟩

def natural : Codec Nat := ⟨.natural, readNatural⟩

def optional {α : Type} (codec : Codec α) : Codec (Option α) where
  write
    | some value => codec.write value
    | none => .null
  read
    | .null => .ok none
    | draft => (codec.read draft).map some

end Codec

/-! ## Lists -/

def readItems {α : Type} (read : Draft → Reading α) : List Draft → Reading (List α)
  | [] => .ok []
  | item :: rest => do
      let value ← read item
      let values ← readItems read rest
      return value :: values

def readList {α : Type} (read : Draft → Reading α) : Draft → Reading (List α)
  | .list items ending => do
      let values ← readItems read items
      refuse ending.listFault?
      return values
  | draft => .error (unexpected draft "a sequence")

def Codec.list {α : Type} (codec : Codec α) : Codec (List α) where
  write values := .list (values.map codec.write)
  read := readList codec.read

/-! ## Variants -/

def findVariant {α : Type} (variants : List (String × α)) (name : String) : Reading α :=
  match variants.lookup name with
  | some variant => .ok variant
  | none => .error (.unknownVariant name (variants.map Prod.fst))

def readKey : Draft → Reading String
  | .text (.ok name) _ => .ok name
  | .text (.error fault) _ => .error (.malformed fault)
  | _ => .error (.malformed .keyNotString)

/-- A variant in place of which an object stands. -/
def readVariantObject {α : Type} (variants : List (String × α))
    (members : List (Draft × Draft)) (ending : Ending) : Reading α :=
  match members with
  | [] => .error (.malformed (if ending = .ended then .endInObject else .expectedValue))
  | (key, value) :: rest => do
      let variant ← findVariant variants (← readKey key)
      readNull value
      match rest, ending with
      | [], .closed => return variant
      | [], .ended => throw (.malformed .endInObject)
      | _, _ => throw (.malformed .expectedValue)

def readVariant {α : Type} (variants : List (String × α)) : Draft → Reading α
  | .text (.ok name) _ => findVariant variants name
  | .text (.error fault) _ => .error (.malformed fault)
  | .object members ending => readVariantObject variants members ending
  | .absent fault => .error (.malformed fault)
  | _ => .error (.malformed .expectedValue)

def variantName {α : Type} [DecidableEq α] (variants : List (String × α)) (variant : α) : String :=
  ((variants.find? fun entry => entry.2 = variant).map Prod.fst).getD ""

def Codec.variants {α : Type} [DecidableEq α] (variants : List (String × α)) : Codec α where
  write variant := .text (variantName variants variant)
  read := readVariant variants

/-! ## Fields -/

/-- The fields of a record type `ρ`, in their declared order. While a record is read its fields are
kept in `σ`, each as an option. -/
inductive Fields (ρ : Type) : Type → Type 1
  | none : Fields ρ Unit
  | field {α σ : Type} (name : String) (codec : Codec α) (get : ρ → α) (rest : Fields ρ σ) :
      Fields ρ (Option α × σ)

namespace Fields

def names {ρ σ : Type} : Fields ρ σ → List String
  | none => []
  | field name _ _ rest => name :: rest.names

def blank {ρ σ : Type} : Fields ρ σ → σ
  | none => ()
  | field _ _ _ rest => (.none, rest.blank)

def write {ρ σ : Type} (fields : Fields ρ σ) (record : ρ) : List (String × Value) :=
  match fields with
  | none => []
  | field name codec get rest => (name, codec.write (get record)) :: rest.write record

/-- The fields with the one of a given name read from a draft. A name that belongs to no field is
passed over with its value. -/
def store {ρ σ : Type} (fields : Fields ρ σ) (key : String) (value : Draft) (slots : σ) :
    Reading σ :=
  match fields, slots with
  | none, () => passOver value
  | field name codec _ rest, (slot, others) =>
      if name = key then
        if slot.isSome then
          .error (.duplicateField name)
        else
          (codec.read value).map fun read => (some read, others)
      else
        (rest.store key value others).map fun others => (slot, others)

/-- The fields read from the members of an object. -/
def storeAll {ρ σ : Type} (fields : Fields ρ σ) (members : List (Draft × Draft)) (slots : σ) :
    Reading σ :=
  match members with
  | [] => .ok slots
  | (key, value) :: rest => do
      let name ← readKey key
      fields.storeAll rest (← fields.store name value slots)

/-- The end of a list after all fields have been read from it. -/
def afterLast (rest : List Draft) (ending : Ending) : Option Fault :=
  match rest, ending with
  | _ :: _, _ => some .trailingCharacters
  | [], .closed => Option.none
  | [], .ended => some .endInList
  | [], .commaClosed => some .trailingComma
  | [], .unseparated | [], .commaEnded => some .trailingCharacters

/-- The fields read from the items of a list, in order; fields without an item stay blank. -/
def inOrder {ρ σ : Type} (fields : Fields ρ σ) (items : List Draft) (ending : Ending) : Reading σ :=
  match fields, items with
  | none, rest => refuse (afterLast rest ending)
  | field _ codec _ rest, item :: items => do
      let value ← codec.read item
      let others ← rest.inOrder items ending
      return (some value, others)
  | field _ _ _ rest, [] => do
      refuse ending.listFault?
      return (.none, rest.blank)

end Fields

/-! ## Records -/

/-- How records of a type are read and written. -/
structure Record (ρ σ : Type) where
  name : String
  fields : Fields ρ σ
  /-- Whether a list may lack fields at its end. -/
  mayBeShort : Bool
  /-- The record of the fields read, or the first one missing. -/
  finish : σ → Reading ρ

namespace Record

variable {ρ σ : Type}

/-- What is said to be wanted where the record is. -/
def wanted (record : Record ρ σ) : String :=
  "struct " ++ record.name

/-- What is said to be wanted where a list is too short. -/
def wantedLength (record : Record ρ σ) : String :=
  let count := record.fields.names.length
  record.wanted ++ " with " ++ toString count ++ (if count = 1 then " element" else " elements")

def readInOrder (record : Record ρ σ) (items : List Draft) (ending : Ending) : Reading ρ := do
  let slots ← record.fields.inOrder items ending
  if items.length < record.fields.names.length && !record.mayBeShort then
    throw (.wrongLength items.length record.wantedLength)
  record.finish slots

def readMembers (record : Record ρ σ) (members : List (Draft × Draft)) (ending : Ending) :
    Reading ρ := do
  let slots ← record.fields.storeAll members record.fields.blank
  refuse ending.objectFault?
  record.finish slots

def read (record : Record ρ σ) : Draft → Reading ρ
  | .list items ending => record.readInOrder items ending
  | .object members ending => record.readMembers members ending
  | draft => .error (unexpected draft record.wanted)

def codec (record : Record ρ σ) : Codec ρ where
  write value := .object (record.fields.write value)
  read := record.read

end Record

/-- A field that must be there. -/
def required {α : Type} (name : String) (slot : Option α) : Reading α :=
  match slot with
  | some value => .ok value
  | none => .error (.missingField name)

/-! ## Whole texts -/

namespace Codec

variable {α : Type}

def encode (codec : Codec α) (value : α) : Text :=
  (codec.write value).render

/-- The value of a text, which must hold nothing else. -/
def decode (codec : Codec α) (text : Text) : Reading α := do
  let (draft, rest) := readDraft text
  let value ← codec.read draft
  if rest.isEmpty then
    return value
  else
    throw (.malformed .trailingCharacters)

end Codec

end SourceAnnotations.Json
