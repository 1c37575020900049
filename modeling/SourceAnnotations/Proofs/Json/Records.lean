import Mathlib.Data.List.Nodup
import SourceAnnotations.Proofs.Json.Forms

/-!
# Forms of records

A record stands as the list of its fields in their order, or as an object that has a member for each
of them.  The members of the object stand in any order, with others among them that belong to no
field, and some may be missing.  Reading the object keeps two kinds of fields apart: those already
read, which have no member left, and those still blank, whose member is to come.
-/

namespace SourceAnnotations.Json

variable {α ρ : Type}

/-- The form of one field of a record. -/
structure MemberForm (ρ : Type) where
  /-- The key of the field in an object. -/
  name : String
  form : Form ρ
  /-- Whether an object may lack the member. -/
  mayBeMissing : ρ → Prop

namespace MemberForm

def required (name : String) (form : Form α) (get : ρ → α) : MemberForm ρ where
  name := name
  form := form.comap get
  mayBeMissing _ := False

/-- A member that may be missing instead of being null. -/
def nullable (name : String) (form : Form α) (get : ρ → Option α) : MemberForm ρ where
  name := name
  form := form.optional.comap get
  mayBeMissing record := get record = none

/-- A key and a document are a member of an object that holds the field. -/
def Accepts (record : ρ) (member : MemberForm ρ) (entry : Literal × Document) : Prop :=
  entry.1.Means member.name ∧ member.form.accepts record entry.2

end MemberForm

/-- The members of an object hold the fields of a record: they are, in some order, members for the
fields, those apart that may be missing, and others whose keys belong to no field. -/
def HoldFields (members : List (MemberForm ρ)) (record : ρ)
    (entries : List (Literal × Document)) : Prop :=
  ∃ (present : List (MemberForm ρ)) (known unknown : List (Literal × Document)),
    present.Sublist members ∧
      (∀ member ∈ members, member ∈ present ∨ member.mayBeMissing record) ∧
      List.Forall₂ (MemberForm.Accepts record) present known ∧
      (∀ entry ∈ unknown, ∃ key, entry.1.Means key ∧ key ∉ members.map MemberForm.name) ∧
      entries.Perm (known ++ unknown)

/-- The form of a record whose fields have given forms. -/
def Form.record (members : List (MemberForm ρ)) : Form ρ where
  fits record := ∀ member ∈ members, member.form.fits record
  accepts record document :=
    (∃ items, document = .list items ∧
      List.Forall₂ (fun member item => member.form.accepts record item) members items) ∨
    (∃ entries, document = .object entries ∧ HoldFields members record entries)

/-! ## Members of a name -/

/-- The values of those members of an object whose key is a given name. -/
def valuesOf (name : String) (entries : List (Literal × Document)) : List Document :=
  (entries.filter fun entry => entry.1.Means name).map Prod.snd

/-- Exactly one member has the name of the field and holds its value, or none has and it may be
missing. -/
def MemberForm.StandsAmong (member : MemberForm ρ) (record : ρ)
    (entries : List (Literal × Document)) : Prop :=
  (∃ document, valuesOf member.name entries = [document] ∧ member.form.accepts record document) ∨
    (valuesOf member.name entries = [] ∧ member.mayBeMissing record)

section

variable {key : Literal} {name other : String}

theorem Literal.Means.unique (first : key.Means name) (second : key.Means other) :
    name = other :=
  String.toList_inj.mp (Except.ok.inj (first.symm.trans second))

theorem valuesOf_cons_of_means (means : key.Means name) (value : Document)
    (entries : List (Literal × Document)) :
    valuesOf name ((key, value) :: entries) = value :: valuesOf name entries := by
  have isNamed : decide (key.Means name) = true := decide_eq_true means
  rw [valuesOf, List.filter_cons, if_pos isNamed]
  rfl

theorem valuesOf_cons_of_ne (means : key.Means other) (different : name ≠ other)
    (value : Document) (entries : List (Literal × Document)) :
    valuesOf name ((key, value) :: entries) = valuesOf name entries := by
  have notNamed : ¬ decide (key.Means name) = true := fun isNamed =>
    different ((of_decide_eq_true isNamed).unique means)
  rw [valuesOf, List.filter_cons, if_neg notNamed]
  rfl

end

section

variable {members present : List (MemberForm ρ)} {record : ρ}
  {entries known unknown : List (Literal × Document)}

theorem valuesOf_unknown {name : String} (isName : name ∈ members.map MemberForm.name)
    (areUnknown : ∀ entry ∈ unknown,
      ∃ key, entry.1.Means key ∧ key ∉ members.map MemberForm.name) :
    valuesOf name unknown = [] := by
  induction unknown with
  | nil => rfl
  | cons entry rest inductionHypothesis =>
      obtain ⟨⟨key, means, notName⟩, later⟩ := List.forall_mem_cons.mp areUnknown
      have different : name ≠ key := fun same => notName (same ▸ isName)
      exact (valuesOf_cons_of_ne means different ..).trans (inductionHypothesis later)

theorem valuesOf_eq_nil {name : String}
    (inOrder : List.Forall₂ (MemberForm.Accepts record) present known)
    (notAmong : name ∉ present.map MemberForm.name) : valuesOf name known = [] := by
  induction inOrder with
  | nil => rfl
  | cons here later inductionHypothesis =>
      have different := List.ne_of_not_mem_cons notAmong
      have notLater := List.not_mem_of_not_mem_cons notAmong
      exact (valuesOf_cons_of_ne here.1 different ..).trans (inductionHypothesis notLater)

/-- Where the members stand in the order of the fields, each has one of its own. -/
theorem valuesOf_eq_singleton
    (inOrder : List.Forall₂ (MemberForm.Accepts record) present known)
    (distinct : (present.map MemberForm.name).Nodup) {member : MemberForm ρ}
    (isPresent : member ∈ present) :
    ∃ document, valuesOf member.name known = [document] ∧
      member.form.accepts record document := by
  induction inOrder with
  | nil => cases isPresent
  | @cons first entry others entries here later inductionHypothesis =>
      obtain ⟨notLater, distinctLater⟩ := List.nodup_cons.mp distinct
      rcases List.mem_cons.mp isPresent with rfl | isLater
      · refine ⟨entry.2, ?_, here.2⟩
        exact (valuesOf_cons_of_means here.1 ..).trans
          (congrArg _ (valuesOf_eq_nil later notLater))
      · obtain ⟨document, only, accepted⟩ := inductionHypothesis distinctLater isLater
        have different : member.name ≠ first.name := fun same =>
          notLater (same ▸ List.mem_map_of_mem isLater)
        exact ⟨document, (valuesOf_cons_of_ne here.1 different ..).trans only, accepted⟩

/-- Where members hold the fields of a record, each field stands among them. -/
theorem HoldFields.standsAmong (hold : HoldFields members record entries)
    (distinct : (members.map MemberForm.name).Nodup) :
    ∀ member ∈ members, member.StandsAmong record entries := by
  obtain ⟨present, known, unknown, isPart, missing, inOrder, areUnknown, sameEntries⟩ := hold
  intro member isMember
  have noUnknown := valuesOf_unknown (List.mem_map_of_mem isMember) areUnknown
  have sameValues : (valuesOf member.name entries).Perm (valuesOf member.name known) := by
    have split : valuesOf member.name (known ++ unknown) = valuesOf member.name known := by
      rw [valuesOf, List.filter_append, List.map_append, ← valuesOf, ← valuesOf, noUnknown,
        List.append_nil]
    rw [← split]
    exact (sameEntries.filter _).map _
  by_cases isPresent : member ∈ present
  · obtain ⟨document, only, accepted⟩ :=
      valuesOf_eq_singleton inOrder (distinct.sublist (isPart.map _)) isPresent
    exact .inl ⟨document, (only ▸ sameValues).eq_singleton, accepted⟩
  · have notAmong : member.name ∉ present.map MemberForm.name := by
      intro isNamed
      obtain ⟨other, isOther, sameName⟩ := List.mem_map.mp isNamed
      have same := List.inj_on_of_nodup_map distinct (isPart.subset isOther) isMember sameName
      exact isPresent (same ▸ isOther)
    have none := valuesOf_eq_nil inOrder notAmong
    exact .inr ⟨(none ▸ sameValues).eq_nil, (missing member isMember).resolve_left isPresent⟩

/-- All keys of such members mean something. -/
theorem HoldFields.keys_mean (hold : HoldFields members record entries) :
    ∀ entry ∈ entries, ∃ key, entry.1.Means key := by
  obtain ⟨present, known, unknown, -, -, inOrder, areUnknown, sameEntries⟩ := hold
  have knownMean : ∀ entry ∈ known, ∃ key, entry.1.Means key := by
    clear sameEntries
    induction inOrder with
    | nil => nofun
    | @cons member _ _ _ here later inductionHypothesis =>
        exact List.forall_mem_cons.mpr ⟨⟨member.name, here.1⟩, inductionHypothesis⟩
  intro entry isEntry
  rcases List.mem_append.mp (sameEntries.subset isEntry) with isKnown | isUnknown
  · exact knownMean entry isKnown
  · obtain ⟨key, means, -⟩ := areUnknown entry isUnknown
    exact ⟨key, means⟩

end

namespace Fields

/-! ## Fields and their forms -/

/-- The codecs of the fields follow the forms of the members. -/
inductive Follow {ρ : Type} : {σ : Type} → Fields ρ σ → List (MemberForm ρ) → Prop
  | none : Follow .none []
  | field {α σ : Type} {name : String} {codec : Codec α} {form : Form α} {get : ρ → α}
      {mayBeMissing : ρ → Prop} {rest : Fields ρ σ} {members : List (MemberForm ρ)}
      (follows : codec.Follows form) (later : Follow rest members) :
      Follow (.field name codec get rest) (⟨name, form.comap get, mayBeMissing⟩ :: members)

/-- Every slot holds the field of the record, or is blank where the member may be missing. -/
def Filled (record : ρ) : {σ : Type} → Fields ρ σ → List (MemberForm ρ) → σ → Prop
  | _, .none, [], _ => True
  | _, .field _ _ get rest, member :: members, slots =>
      (slots.1 = some (get record) ∨ slots.1 = .none ∧ member.mayBeMissing record) ∧
        rest.Filled record members slots.2
  | _, _, _, _ => False

/-- The slots when all fields of the record have been read. -/
def full (record : ρ) : {σ : Type} → Fields ρ σ → σ
  | _, .none => ()
  | _, .field _ _ get rest => (some (get record), rest.full record)

/-- Every slot holds the field of the record and no member of its name is left, or is blank and the
field stands among the members that are left. -/
def Awaits (record : ρ) (entries : List (Literal × Document)) :
    {σ : Type} → Fields ρ σ → List (MemberForm ρ) → σ → Prop
  | _, .none, [], _ => True
  | _, .field _ _ get rest, member :: members, slots =>
      (slots.1 = some (get record) ∧ valuesOf member.name entries = [] ∨
        slots.1 = .none ∧ member.StandsAmong record entries) ∧
        rest.Awaits record entries members slots.2
  | _, _, _, _ => False

section

variable {σ : Type} {fields : Fields ρ σ} {members : List (MemberForm ρ)} {record : ρ}
  {entries : List (Literal × Document)}

theorem Follow.names_eq (follow : fields.Follow members) :
    fields.names = members.map MemberForm.name := by
  induction follow with
  | none => rfl
  | field follows later inductionHypothesis =>
      rw [names, inductionHypothesis]
      rfl

/-- If no member may be missing, no slot is blank. -/
theorem Follow.eq_full (follow : fields.Follow members)
    (required : ∀ member ∈ members, ¬ member.mayBeMissing record) {slots : σ}
    (filled : fields.Filled record members slots) : slots = fields.full record := by
  induction follow with
  | none => rfl
  | field follows later inductionHypothesis =>
      obtain ⟨requiredHere, requiredLater⟩ := List.forall_mem_cons.mp required
      obtain ⟨isRead | ⟨-, missing⟩, filledLater⟩ := filled
      · exact Prod.ext isRead (inductionHypothesis requiredLater filledLater)
      · exact absurd missing requiredHere

/-! ## Reading members -/

theorem Follow.awaits_blank (follow : fields.Follow members)
    (stand : ∀ member ∈ members, member.StandsAmong record entries) :
    fields.Awaits record entries members fields.blank := by
  induction follow with
  | none => trivial
  | field follows later inductionHypothesis =>
      obtain ⟨here, others⟩ := List.forall_mem_cons.mp stand
      exact ⟨.inr ⟨rfl, here⟩, inductionHypothesis others⟩

/-- When no members are left, what is still blank may be missing. -/
theorem Follow.filled_of_awaits (follow : fields.Follow members) {slots : σ}
    (awaits : fields.Awaits record [] members slots) : fields.Filled record members slots := by
  induction follow with
  | none => trivial
  | field follows later inductionHypothesis =>
      refine ⟨?_, inductionHypothesis awaits.2⟩
      rcases awaits.1 with ⟨isRead, -⟩ | ⟨isBlank, ⟨document, ⟨⟩, -⟩ | ⟨-, missing⟩⟩
      · exact .inl isRead
      · exact .inr ⟨isBlank, missing⟩

/-- A member changes nothing for fields of other names. -/
theorem Follow.awaits_of_not_mem (follow : fields.Follow members) {key : Literal} {name : String}
    (means : key.Means name) (notAmong : name ∉ members.map MemberForm.name) (value : Document)
    {slots : σ} (awaits : fields.Awaits record ((key, value) :: entries) members slots) :
    fields.Awaits record entries members slots := by
  induction follow with
  | none => trivial
  | field follows later inductionHypothesis =>
      have different := List.ne_of_not_mem_cons notAmong
      have notLater := List.not_mem_of_not_mem_cons notAmong
      refine ⟨?_, inductionHypothesis notLater awaits.2⟩
      have here := awaits.1
      rw [MemberForm.StandsAmong, valuesOf_cons_of_ne means (Ne.symm different)] at here
      exact here

/-- One member is stored in the slot of its field, or passed over if it belongs to none. -/
theorem Follow.store (follow : fields.Follow members)
    (distinct : (members.map MemberForm.name).Nodup)
    (fits : ∀ member ∈ members, member.form.fits record) {key : Literal} {name : String}
    (means : key.Means name) (value : Document) {slots : σ}
    (awaits : fields.Awaits record ((key, value) :: entries) members slots) :
    ∃ next, fields.store name value.draft slots = .ok next ∧
      fields.Awaits record entries members next := by
  induction follow with
  | none =>
      refine ⟨(), ?_, trivial⟩
      rw [Fields.store, passOver, value.pass_draft]
      rfl
  | @field α σ field codec form get mayBeMissing rest members follows later inductionHypothesis =>
      obtain ⟨slot, others⟩ := slots
      obtain ⟨here, awaitsLater⟩ := awaits
      obtain ⟨fitsHere, fitsLater⟩ := List.forall_mem_cons.mp fits
      obtain ⟨notLater, distinctLater⟩ := List.nodup_cons.mp distinct
      by_cases isHere : field = name
      · subst isHere
        rw [MemberForm.StandsAmong, valuesOf_cons_of_means means] at here
        rcases here with ⟨-, ⟨⟩⟩ | ⟨isBlank, ⟨document, only, accepted⟩ | ⟨⟨⟩, -⟩⟩
        obtain ⟨rfl, none⟩ := List.cons.inj only
        refine ⟨(some (get record), others), ?_, .inl ⟨rfl, none⟩,
          later.awaits_of_not_mem means notLater value awaitsLater⟩
        obtain rfl : slot = .none := isBlank
        rw [Fields.store, if_pos rfl, follows.reads fitsHere accepted]
        rfl
      · rw [MemberForm.StandsAmong, valuesOf_cons_of_ne means isHere] at here
        obtain ⟨next, stored, awaitsNext⟩ := inductionHypothesis distinctLater fitsLater awaitsLater
        refine ⟨(slot, next), ?_, here, awaitsNext⟩
        rw [Fields.store, if_neg isHere, stored]
        rfl

/-- The members of an object fill the slots of the fields that stand among them. -/
theorem Follow.storeAll (follow : fields.Follow members)
    (distinct : (members.map MemberForm.name).Nodup)
    (fits : ∀ member ∈ members, member.form.fits record)
    (mean : ∀ entry ∈ entries, ∃ key, entry.1.Means key) {slots : σ}
    (awaits : fields.Awaits record entries members slots) :
    ∃ filled, fields.storeAll (memberDrafts entries) slots = .ok filled ∧
      fields.Filled record members filled := by
  induction entries generalizing slots with
  | nil => exact ⟨slots, rfl, follow.filled_of_awaits awaits⟩
  | cons entry rest inductionHypothesis =>
      obtain ⟨key, value⟩ := entry
      obtain ⟨⟨name, means⟩, meanLater⟩ := List.forall_mem_cons.mp mean
      obtain ⟨next, stored, awaitsNext⟩ := follow.store distinct fits means value awaits
      obtain ⟨filled, storedAll, isFilled⟩ := inductionHypothesis meanLater awaitsNext
      refine ⟨filled, ?_, isFilled⟩
      rw [memberDrafts, means.draft_eq, Fields.storeAll]
      change (fields.store name value.draft slots).bind _ = _
      rw [stored]
      exact storedAll

/-! ## Reading items -/

theorem Follow.filled_blank (follow : fields.Follow members)
    (missing : ∀ member ∈ members, member.mayBeMissing record) :
    fields.Filled record members fields.blank := by
  induction follow with
  | none => trivial
  | field follows later inductionHypothesis =>
      obtain ⟨here, others⟩ := List.forall_mem_cons.mp missing
      exact ⟨.inr ⟨rfl, here⟩, inductionHypothesis others⟩

/-- The items of a list fill the slots of the first fields, and those of the others stay blank. -/
theorem Follow.inOrder (follow : fields.Follow members)
    (fits : ∀ member ∈ members, member.form.fits record) {items : List Document}
    {absent : List (MemberForm ρ)} (split : members = present ++ absent)
    (missing : ∀ member ∈ absent, member.mayBeMissing record)
    (accepted : List.Forall₂ (fun member item => member.form.accepts record item) present items) :
    ∃ filled, fields.inOrder (itemDrafts items) .closed = .ok filled ∧
      fields.Filled record members filled := by
  induction follow generalizing items present with
  | none =>
      obtain ⟨rfl, -⟩ := List.append_eq_nil_iff.mp split.symm
      cases accepted
      exact ⟨(), rfl, trivial⟩
  | @field α σ field codec form get mayBeMissing rest members follows later inductionHypothesis =>
      obtain ⟨fitsHere, fitsLater⟩ := List.forall_mem_cons.mp fits
      cases accepted with
      | nil =>
          obtain rfl : _ = absent := split
          obtain ⟨missingHere, missingLater⟩ := List.forall_mem_cons.mp missing
          exact ⟨(.none, rest.blank), rfl, .inr ⟨rfl, missingHere⟩,
            later.filled_blank missingLater⟩
      | cons here others =>
          obtain ⟨rfl, splitLater⟩ := List.cons.inj split
          obtain ⟨filled, read, isFilled⟩ := inductionHypothesis fitsLater splitLater others
          refine ⟨(some (get record), filled), ?_, .inl rfl, isFilled⟩
          rw [itemDrafts, Fields.inOrder, follows.reads fitsHere here, read]
          rfl

/-! ## Writing -/

theorem Follow.exists_entries (follow : fields.Follow members)
    (fits : ∀ member ∈ members, member.form.fits record) :
    ∃ entries, List.Forall₂ (MemberForm.Accepts record) members entries ∧
      List.Forall₂ IsWrittenMember (fields.write record) entries := by
  induction follow with
  | none => exact ⟨[], .nil, .nil⟩
  | @field α σ name codec form get mayBeMissing rest members follows later inductionHypothesis =>
      obtain ⟨fitsHere, fitsLater⟩ := List.forall_mem_cons.mp fits
      obtain ⟨key, means, keyWritten⟩ := exists_literal name
      obtain ⟨document, accepted, rendered⟩ := follows.writes fitsHere
      obtain ⟨entries, inOrder, written⟩ := inductionHypothesis fitsLater
      exact ⟨(key, document) :: entries, .cons ⟨means, accepted⟩ inOrder,
        .cons ⟨renderString_eq keyWritten, rendered⟩ written⟩

end

end Fields

/-! ## Records -/

namespace Record

variable {σ : Type} {record : Record ρ σ} {members : List (MemberForm ρ)} {value : ρ}

/-- Finishing the record gives a value back when the slots hold its fields, those apart that may be
missing. -/
def Finishes (record : Record ρ σ) (members : List (MemberForm ρ)) (value : ρ) : Prop :=
  ∀ slots : σ, record.fields.Filled value members slots → record.finish slots = .ok value

theorem read_object (follow : record.fields.Follow members)
    (distinct : (members.map MemberForm.name).Nodup)
    (fits : ∀ member ∈ members, member.form.fits value)
    (finishes : record.Finishes members value) {entries : List (Literal × Document)}
    (hold : HoldFields members value entries) :
    record.read (Document.object entries).draft = .ok value := by
  obtain ⟨filled, read, isFilled⟩ :=
    follow.storeAll distinct fits hold.keys_mean
      (follow.awaits_blank (hold.standsAmong distinct))
  change record.readMembers (memberDrafts entries) .closed = .ok value
  rw [readMembers, read]
  exact finishes filled isFilled

/-- A list may lack items at its end where the record allows it. -/
theorem read_list (follow : record.fields.Follow members)
    (fits : ∀ member ∈ members, member.form.fits value)
    (finishes : record.Finishes members value) {present absent : List (MemberForm ρ)}
    (split : members = present ++ absent) (isLong : record.mayBeShort = true ∨ absent = [])
    (missing : ∀ member ∈ absent, member.mayBeMissing value) {items : List Document}
    (accepted : List.Forall₂ (fun member item => member.form.accepts value item) present items) :
    record.read (Document.list items).draft = .ok value := by
  obtain ⟨filled, read, isFilled⟩ := follow.inOrder fits split missing accepted
  have isAccepted :
      (decide ((itemDrafts items).length < record.fields.names.length) && !record.mayBeShort) =
        false := by
    rcases isLong with mayBeShort | rfl
    · simp [mayBeShort]
    · simp [follow.names_eq, itemDrafts_eq, split, accepted.length_eq]
  change record.readInOrder (itemDrafts items) .closed = .ok value
  rw [readInOrder, read]
  change (if (decide _ && !_) = true then _ else _) = Except.ok value
  rw [isAccepted]
  exact finishes filled isFilled

/-- A record follows the form of its fields, if finishing it gives the record whose fields have been
read. -/
theorem codec_follows (follow : record.fields.Follow members)
    (distinct : (members.map MemberForm.name).Nodup)
    (finishes : ∀ value, record.Finishes members value) :
    record.codec.Follows (.record members) where
  reads := by
    rintro value document fits (⟨items, rfl, accepted⟩ | ⟨entries, rfl, hold⟩)
    · exact read_list follow fits (finishes value) (List.append_nil members).symm (.inr rfl)
        nofun accepted
    · exact read_object follow distinct fits (finishes value) hold
  writes := by
    intro value fits
    obtain ⟨entries, inOrder, written⟩ := follow.exists_entries fits
    have hold : HoldFields members value entries :=
      ⟨members, entries, [], .refl _, fun _ => .inl, inOrder, nofun, by rw [List.append_nil]⟩
    exact ⟨.object entries, .inr ⟨entries, rfl, hold⟩,
      congrArg ('\x7b' :: ·) (renderMembers_eq written)⟩

/-- A record none of whose members may be missing follows the form of its fields, if finishing it
with all of them gives it back. -/
theorem codec_follows_of_required (follow : record.fields.Follow members)
    (distinct : (members.map MemberForm.name).Nodup)
    (required : ∀ member ∈ members, ∀ value, ¬ member.mayBeMissing value)
    (finishes : ∀ value, record.finish (record.fields.full value) = .ok value) :
    record.codec.Follows (.record members) := by
  refine codec_follows follow distinct fun value slots filled => ?_
  rw [follow.eq_full (fun member isMember => required member isMember value) filled]
  exact finishes value

end Record

end SourceAnnotations.Json
