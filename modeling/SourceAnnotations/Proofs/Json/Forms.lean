import SourceAnnotations.Json.Codec
import SourceAnnotations.Proofs.Json.Assembly
import SourceAnnotations.Proofs.Json.Compact

/-!
# Forms of values

A form says which values of a type can be written and as which documents each of them may stand in a
text.  A codec follows a form when it writes every such value as one of its documents and reads the
value back from each of them.  Forms are put together like codecs: a list has the form of its items,
and a variant stands as its name or as the key of an object whose only member is null.
-/

namespace SourceAnnotations.Json

structure Form (α : Type) where
  /-- The values that can be written. -/
  fits : α → Prop
  /-- The documents as which a value may stand. -/
  accepts : α → Document → Prop

variable {α ρ : Type}

namespace Form

def boolean : Form Bool where
  fits _ := True
  accepts value document := document = .boolean value

/-- Any character of a string may be escaped. -/
def text : Form String where
  fits _ := True
  accepts value document := ∃ literal : Literal, literal.Means value ∧ document = .text literal

/-- A number of sixty-four bits, written without point and exponent. -/
def natural : Form Nat where
  fits value := value < wordBound
  accepts value document :=
    ∃ written : WrittenNumber,
      written.numeral = ⟨false, Nat.toDigits 10 value, [], none⟩ ∧ document = .number written

def optional (form : Form α) : Form (Option α) where
  fits value := ∀ present ∈ value, form.fits present
  accepts value document :=
    match value with
    | some present => form.accepts present document
    | none => document = .null

def list (form : Form α) : Form (List α) where
  fits values := ∀ value ∈ values, form.fits value
  accepts values document :=
    ∃ items, document = .list items ∧ List.Forall₂ form.accepts values items

/-- A variant stands as its name, or as an object whose only member has the name as key and null as
value. -/
def variant (name : α → String) : Form α where
  fits _ := True
  accepts value document :=
    ∃ literal : Literal, literal.Means (name value) ∧
      (document = .text literal ∨ document = .object [(literal, .null)])

/-- The form of a part of a record, as a form of the record. -/
def comap (get : ρ → α) (form : Form α) : Form ρ where
  fits record := form.fits (get record)
  accepts record document := form.accepts (get record) document

end Form

namespace Codec

/-- What the codec writes the form accepts, and what the form accepts the codec reads. -/
structure Follows (codec : Codec α) (form : Form α) : Prop where
  reads : ∀ {value : α} {document : Document}, form.fits value → form.accepts value document →
    codec.read document.draft = .ok value
  writes : ∀ {value : α}, form.fits value →
    ∃ document, form.accepts value document ∧ (codec.write value).render = document.compact

/-- Every value that can be written is read back from the text written for it, and from every text
that spells one of the documents as which it may stand. -/
def RoundTrips (codec : Codec α) (form : Form α) : Prop :=
  ∀ value, form.fits value →
    codec.decode (codec.encode value) = .ok value ∧
      ∀ (document : Document) (text : Text), form.accepts value document →
        document.IsWrittenAs text → codec.decode text = .ok value

theorem decode_of_isWrittenAs {codec : Codec α} {document : Document} {text : Text} {value : α}
    (written : document.IsWrittenAs text) (reads : codec.read document.draft = .ok value) :
    codec.decode text = .ok value := by
  rw [decode, written.readDraft_eq]
  dsimp only
  rw [reads]
  rfl

theorem Follows.roundTrips {codec : Codec α} {form : Form α} (follows : codec.Follows form) :
    codec.RoundTrips form := by
  intro value fits
  refine ⟨?_, fun document text accepted written =>
    decode_of_isWrittenAs written (follows.reads fits accepted)⟩
  obtain ⟨document, accepted, rendered⟩ := follows.writes fits
  rw [encode, rendered]
  exact decode_of_isWrittenAs document.isWrittenAs_compact (follows.reads fits accepted)

/-! ## Simple values -/

theorem boolean_follows : boolean.Follows .boolean where
  reads := by
    rintro value document - rfl
    rfl
  writes := by
    rintro value -
    exact ⟨.boolean value, rfl, by cases value <;> rfl⟩

end Codec

theorem Literal.Means.draft_eq {literal : Literal} {value : String} (means : literal.Means value) :
    literal.draft = .text (.ok value) (.ok ()) := by
  rw [draft, means, Except.map, String.ofList_toList]

theorem compact_text (literal : Literal) :
    (Document.text literal).compact = (Lexeme.quoted literal).text :=
  List.append_nil _

namespace Codec

theorem text_follows : text.Follows .text where
  reads := by
    rintro value document - ⟨literal, means, rfl⟩
    rw [Document.draft, means.draft_eq]
    rfl
  writes := by
    rintro value -
    obtain ⟨literal, means, written⟩ := exists_literal value
    refine ⟨.text literal, ⟨literal, means, rfl⟩, ?_⟩
    rw [compact_text]
    exact renderString_eq written

theorem natural_follows : natural.Follows .natural where
  reads := by
    rintro value document fits ⟨written, numeral, rfl⟩
    rw [Document.draft, numeral, value_natural fits]
    rfl
  writes := by
    rintro value -
    exact ⟨.number (.ofNat value), ⟨.ofNat value, rfl, rfl⟩, by
      simp [Document.compact, Document.lexemes, Lexeme.text, WrittenNumber.text,
        WrittenNumber.ofNat, WrittenNumber.fractionText, WrittenNumber.exponentText, natural,
        Value.natural, Value.render, Number.toText]⟩

theorem optional_read (codec : Codec α) {draft : Draft} (notNull : draft ≠ .null) :
    codec.optional.read draft = (codec.read draft).map some := by
  cases draft <;> first | exact absurd rfl notNull | rfl

/-- An optional value follows the optional form, if null is no form of the value itself. -/
theorem optional_follows {codec : Codec α} {form : Form α} (follows : codec.Follows form)
    (noNull : ∀ value, ¬ form.accepts value .null) : codec.optional.Follows form.optional where
  reads := by
    intro value document fits accepted
    cases value with
    | none =>
        subst accepted
        rfl
    | some present =>
        have notNull : document.draft ≠ .null := by
          cases document with
          | null => exact absurd accepted (noNull present)
          | _ => nofun
        rw [optional_read codec notNull, follows.reads (fits present rfl) accepted]
        rfl
  writes := by
    intro value fits
    cases value with
    | none => exact ⟨.null, rfl, rfl⟩
    | some present => exact follows.writes (fits present rfl)

/-! ## Lists -/

section

variable {codec : Codec α} {form : Form α} {values : List α}

theorem Follows.readItems_eq (follows : codec.Follows form) {items : List Document}
    (fits : ∀ value ∈ values, form.fits value)
    (accepted : List.Forall₂ form.accepts values items) :
    readItems codec.read (itemDrafts items) = .ok values := by
  induction accepted with
  | nil => rfl
  | cons here others inductionHypothesis =>
      obtain ⟨fitsHere, fitsOthers⟩ := List.forall_mem_cons.mp fits
      rw [itemDrafts, readItems, follows.reads fitsHere here, inductionHypothesis fitsOthers]
      rfl

theorem Follows.exists_items (follows : codec.Follows form)
    (fits : ∀ value ∈ values, form.fits value) :
    ∃ items, List.Forall₂ form.accepts values items ∧
      renderItems (values.map codec.write) = (itemLexemes items).flatMap Lexeme.text := by
  have written : ∃ items, List.Forall₂ form.accepts values items ∧
      List.Forall₂ (fun value item => value.render = Document.compact item)
        (values.map codec.write) items := by
    induction values with
    | nil => exact ⟨[], .nil, .nil⟩
    | cons value others inductionHypothesis =>
        obtain ⟨fitsHere, fitsOthers⟩ := List.forall_mem_cons.mp fits
        obtain ⟨item, accepted, rendered⟩ := follows.writes fitsHere
        obtain ⟨items, allAccepted, allRendered⟩ := inductionHypothesis fitsOthers
        exact ⟨item :: items, .cons accepted allAccepted, .cons rendered allRendered⟩
  obtain ⟨items, accepted, rendered⟩ := written
  exact ⟨items, accepted, renderItems_eq rendered⟩

end

theorem list_follows {codec : Codec α} {form : Form α} (follows : codec.Follows form) :
    codec.list.Follows form.list where
  reads := by
    rintro values document fits ⟨items, rfl, accepted⟩
    simp only [Document.draft, list, readList, follows.readItems_eq fits accepted]
    rfl
  writes := by
    intro values fits
    obtain ⟨items, accepted, rendered⟩ := follows.exists_items fits
    exact ⟨.list items, ⟨items, rfl, accepted⟩, congrArg ('[' :: ·) rendered⟩

/-! ## Variants -/

/-- Variants follow the form of their names, if each is found by its name and written as it. -/
theorem variants_follows [DecidableEq α] {variants : List (String × α)} {name : α → String}
    (found : ∀ value, variants.lookup (name value) = some value)
    (named : ∀ value, variantName variants value = name value) :
    (Codec.variants variants).Follows (.variant name) where
  reads := by
    rintro value document - ⟨literal, means, written⟩
    have foundHere : findVariant variants (name value) = .ok value := by
      rw [findVariant, found]
    rcases written with rfl | rfl
    · rw [Document.draft, means.draft_eq]
      exact foundHere
    · rw [Document.draft, memberDrafts, means.draft_eq]
      change (findVariant variants (name value)).bind _ = .ok value
      rw [foundHere]
      rfl
  writes := by
    rintro value -
    obtain ⟨literal, means, written⟩ := exists_literal (name value)
    refine ⟨.text literal, ⟨literal, means, .inl rfl⟩, ?_⟩
    change renderString (variantName variants value) = _
    rw [named, renderString_eq written, compact_text]

end Codec

end SourceAnnotations.Json
