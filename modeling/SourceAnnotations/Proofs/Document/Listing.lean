import SourceAnnotations.Document.Session
import SourceAnnotations.Proofs.Cache.Slot

/-!
# The four lists of the tree

The comments, the tags, the tags from comments and the folds are kept in the same way, so they are
one family here: what a list is made of, where its slot is, and how it is computed without any slot.
A call for one of them ends in one of four ways, which say all that it does to the document:

* the slot of the list holds it already;
* the slot is empty and the call is refused, because its caller has cancelled;
* the slot is empty, and the list is read off the tree and published;
* the slot is empty, and the list is made from the comments, which are called for first, and
  published.
-/

namespace SourceAnnotations

/-! ## The family -/

namespace Listing

def Item : Listing → Type
  | comments => Comment
  | tags => Tag
  | commentTags => Tag
  | foldings => Fold

def place : (listing : Listing) → Place Document (List listing.Item)
  | comments => Document.commentsPlace
  | tags => Document.tagsPlace
  | commentTags => Document.commentTagsPlace
  | foldings => Document.foldingsPlace

def outcome : (listing : Listing) → Except DocumentError (Shared (List listing.Item)) → Outcome
  | comments => Outcome.comments
  | tags => Outcome.tags
  | commentTags => Outcome.commentTags
  | foldings => Outcome.foldings

/-- The list of a tree, computed without a document. -/
def compute (tree : SyntaxTree) (config : AnnotationConfig) (cancellation : Cancellation) :
    (listing : Listing) → Except DocumentError (List listing.Item)
  | comments => tree.comments config cancellation
  | tags => tree.throwTags config cancellation
  | commentTags => do
      let collected ← tree.comments config cancellation
      return SourceAnnotations.commentTags collected config.tagWords
  | foldings => do
      let collected ← tree.comments config cancellation
      tree.foldings collected config cancellation

abbrev Derivation (listing : Listing) : Type :=
  SyntaxTree → AnnotationConfig → Cancellation → List Comment →
    Except DocumentError (List listing.Item)

/-- How the list is made from the comments, if it is made from them. -/
def derive? : (listing : Listing) → Option listing.Derivation
  | comments => none
  | tags => none
  | commentTags =>
      some fun _ config _ collected =>
        .ok (SourceAnnotations.commentTags collected config.tagWords)
  | foldings =>
      some fun tree config cancellation collected =>
        tree.foldings collected config cancellation

theorem outcome_injective (listing : Listing) : Function.Injective listing.outcome := by
  cases listing <;> exact fun _ _ same => by injection same

theorem outcome_ok_ne_error (listing : Listing) (shared : Shared (List listing.Item))
    (failure : DocumentError) : listing.outcome (.ok shared) ≠ listing.outcome (.error failure) := by
  intro same
  cases outcome_injective listing same

section

variable {listing : Listing} (tree : SyntaxTree) (config : AnnotationConfig)

theorem compute_of_derive {derive : listing.Derivation} (derives : listing.derive? = some derive)
    (cancellation : Cancellation) :
    listing.compute tree config cancellation =
      tree.comments config cancellation >>= derive tree config cancellation := by
  cases listing with
  | comments => cases derives
  | tags => cases derives
  | commentTags => cases derives; rfl
  | foldings => cases derives; rfl

theorem compute_live (listing : Listing) :
    ∃ items, listing.compute tree config .live = .ok items := by
  cases listing <;> exact ⟨_, rfl⟩

theorem compute_cancelled (listing : Listing) :
    listing.compute tree config .cancelled = .error .cancelled := by
  cases listing <;> rfl

end

variable {listing : Listing} {tree : SyntaxTree} {config : AnnotationConfig}

/-- Making tags from comments that are there already is the one computation that does not look at
the cancellation. -/
theorem derive_commentTags {derive : Listing.commentTags.Derivation}
    (derives : Listing.commentTags.derive? = some derive)
    (cancellation : Cancellation) (collected : List Comment) :
    derive tree config cancellation collected =
      .ok (SourceAnnotations.commentTags collected config.tagWords) := by
  cases derives
  rfl

theorem derive_cancelled {derive : listing.Derivation} {collected : List Comment}
    (derives : listing.derive? = some derive) (notCommentTags : listing ≠ .commentTags) :
    derive tree config .cancelled collected = .error .cancelled := by
  cases listing with
  | comments => cases derives
  | tags => cases derives
  | commentTags => exact absurd rfl notCommentTags
  | foldings => cases derives; rfl

theorem derive_error {derive : listing.Derivation} {cancellation : Cancellation}
    {collected : List Comment} {failure : DocumentError}
    (derives : listing.derive? = some derive)
    (failed : derive tree config cancellation collected = .error failure) :
    cancellation = .cancelled ∧ failure = .cancelled ∧ listing ≠ .commentTags := by
  cases listing with
  | comments => cases derives
  | tags => cases derives
  | commentTags => cases derives; cases failed
  | foldings =>
      cases derives
      cases cancellation with
      | live => cases failed
      | cancelled => cases failed; exact ⟨rfl, rfl, nofun⟩

theorem derive_live {derive : listing.Derivation} {items : List listing.Item}
    {cancellation : Cancellation} {collected : List Comment}
    (derives : listing.derive? = some derive)
    (made : derive tree config cancellation collected = .ok items) :
    derive tree config .live collected = .ok items := by
  cases listing with
  | comments => cases derives
  | tags => cases derives
  | commentTags => cases derives; exact made
  | foldings =>
      cases derives
      cases cancellation with
      | live => exact made
      | cancelled => cases made

end Listing

/-! ## Filling a slot -/

namespace Document

variable {document : Document} {listing other : Listing}

/-- The document after a list has been published to its slot, which was empty. -/
def fill (listing : Listing) (items : List listing.Item) (document : Document) : Document :=
  { listing.place.store ⟨some ⟨document.nextInstance, items⟩⟩ document with
    nextInstance := document.nextInstance + 1 }

variable (items : List listing.Item)

@[simp]
theorem fill_tree : (document.fill listing items).tree = document.tree := by
  cases listing <;> rfl

@[simp]
theorem fill_config : (document.fill listing items).config = document.config := by
  cases listing <;> rfl

@[simp]
theorem fill_model : (document.fill listing items).model = document.model := by
  cases listing <;> rfl

@[simp]
theorem fill_errors : (document.fill listing items).errors = document.errors := by
  cases listing <;> rfl

@[simp]
theorem fill_nextInstance :
    (document.fill listing items).nextInstance = document.nextInstance + 1 :=
  rfl

@[simp]
theorem slot_fill_self :
    listing.place.slot (document.fill listing items) =
      ⟨some ⟨document.nextInstance, items⟩⟩ := by
  cases listing <;> rfl

theorem slot_fill_of_ne (different : other ≠ listing) :
    other.place.slot (document.fill listing items) = other.place.slot document := by
  cases listing <;> cases other <;> first | rfl | exact absurd rfl different

theorem share_listing :
    listing.place.share items document =
      (⟨document.nextInstance, items⟩,
        { document with nextInstance := document.nextInstance + 1 }) := by
  cases listing <;> rfl

theorem publish_listing (empty : (listing.place.slot document).held = none) :
    listing.place.publish ⟨document.nextInstance, items⟩
        { document with nextInstance := document.nextInstance + 1 } =
      (⟨document.nextInstance, items⟩, document.fill listing items) := by
  have unshared :
      (listing.place.slot
        { document with nextInstance := document.nextInstance + 1 }).held = none := by
    cases listing <;> exact empty
  rw [Place.publish_of_empty unshared]
  cases listing <;> rfl

/-! ## Calls -/

section

variable {compute : Document → Except DocumentError (List listing.Item) × Document}
  {between : Document}

theorem list_of_held {held : Shared (List listing.Item)}
    (holds : (listing.place.slot document).held = some held) :
    list listing.place compute document = (.ok held, document) := by
  rw [list, Place.getOrTry_of_held holds]

theorem list_of_error {failure : DocumentError}
    (empty : (listing.place.slot document).held = none)
    (failed : compute document = (.error failure, between)) :
    list listing.place compute document = (.error failure, between) := by
  rw [list, Place.getOrTry_of_error empty (by rw [failed])]

theorem list_of_ok {items : List listing.Item}
    (empty : (listing.place.slot document).held = none)
    (succeeded : compute document = (.ok items, between))
    (still : (listing.place.slot between).held = none) :
    list listing.place compute document =
      (.ok ⟨between.nextInstance, items⟩, between.fill listing items) := by
  rw [list, Place.getOrTry_of_ok empty (by rw [succeeded]), share_listing, publish_listing _ still]

theorem fromComments_of_error {failure : DocumentError} {cancellation : Cancellation}
    {make : Document → List Comment → Except DocumentError (List listing.Item)}
    (listed : document.listComments cancellation = (.error failure, between)) :
    fromComments cancellation make document = (.error failure, between) := by
  rw [fromComments, listed]

theorem fromComments_of_ok {comments : Shared (List Comment)} {cancellation : Cancellation}
    {make : Document → List Comment → Except DocumentError (List listing.Item)}
    (listed : document.listComments cancellation = (.ok comments, between)) :
    fromComments cancellation make document = (make between comments.value, between) := by
  rw [fromComments, listed]

end

/-- What a call for a list can do: its answer, and the document after it. -/
inductive ListCall (cancellation : Cancellation) (document : Document) :
    (listing : Listing) → Except DocumentError (Shared (List listing.Item)) → Document → Prop
  | hit {listing : Listing} {held : Shared (List listing.Item)} :
      (listing.place.slot document).held = some held →
        ListCall cancellation document listing (.ok held) document
  | refused {listing : Listing} :
      (listing.place.slot document).held = none →
        cancellation = .cancelled →
        (listing = .commentTags → document.comments.held = none) →
          ListCall cancellation document listing (.error .cancelled) document
  | scanned {listing : Listing} {items : List listing.Item} :
      (listing.place.slot document).held = none →
        cancellation = .live →
        listing.derive? = none →
        listing.compute document.tree.value document.config .live = .ok items →
          ListCall cancellation document listing (.ok ⟨document.nextInstance, items⟩)
            (document.fill listing items)
  | derived {listing : Listing} {items : List listing.Item} {derive : listing.Derivation}
      {comments : Shared (List Comment)} {between : Document} :
      (listing.place.slot document).held = none →
        ListCall cancellation document .comments (.ok comments) between →
        listing.derive? = some derive →
        derive document.tree.value document.config cancellation comments.value = .ok items →
          ListCall cancellation document listing (.ok ⟨between.nextInstance, items⟩)
            (between.fill listing items)

namespace ListCall

variable {cancellation : Cancellation} {after : Document} {derive : listing.Derivation}
  {result : Except DocumentError (Shared (List listing.Item))}

/-- Only the slots of the four lists are touched. -/
theorem keeps (call : ListCall cancellation document listing result after) :
    after.tree = document.tree ∧ after.config = document.config ∧
      after.model = document.model ∧ after.errors = document.errors := by
  induction call with
  | hit => exact ⟨rfl, rfl, rfl, rfl⟩
  | refused => exact ⟨rfl, rfl, rfl, rfl⟩
  | scanned => simp only [fill_tree, fill_config, fill_model, fill_errors, and_self]
  | derived _ _ _ _ inductionHypothesis =>
      simpa only [fill_tree, fill_config, fill_model, fill_errors] using inductionHypothesis

/-- Of the four slots only its own and that of the comments are. -/
theorem slot_eq (call : ListCall cancellation document listing result after)
    (different : other ≠ listing) (notComments : other ≠ .comments) :
    other.place.slot after = other.place.slot document := by
  induction call with
  | hit => rfl
  | refused => rfl
  | scanned => exact slot_fill_of_ne _ different
  | derived _ _ _ _ inductionHypothesis =>
      rw [slot_fill_of_ne _ different]
      exact inductionHypothesis notComments

/-- Comments that are handed out in spite of a cancellation were there before. -/
theorem comments_of_cancelled {comments : Shared (List Comment)}
    (call : ListCall .cancelled document .comments (.ok comments) after) :
    after = document ∧ document.comments.held = some comments := by
  cases call with
  | hit holds => exact ⟨rfl, holds⟩
  | scanned _ live => cases live
  | derived _ _ derives => cases derives

theorem of_scan (direct : listing.derive? = none) (cancellation : Cancellation)
    (document : Document) :
    let answer :=
      list listing.place
        (fun document =>
          (listing.compute document.tree.value document.config cancellation, document))
        document
    ListCall cancellation document listing answer.1 answer.2 := by
  intro answer
  cases holds : (listing.place.slot document).held with
  | some held =>
      have hits : answer = (.ok held, document) := list_of_held holds
      rw [hits]
      exact .hit holds
  | none =>
      cases cancellation with
      | live =>
          obtain ⟨items, computed⟩ :=
            listing.compute_live document.tree.value document.config
          have fills :
              answer = (.ok ⟨document.nextInstance, items⟩, document.fill listing items) :=
            list_of_ok holds (by rw [computed]) holds
          rw [fills]
          exact .scanned holds rfl direct computed
      | cancelled =>
          have fails : answer = (.error .cancelled, document) :=
            list_of_error holds (by rw [Listing.compute_cancelled])
          rw [fails]
          refine .refused holds rfl ?_
          rintro rfl
          cases direct

theorem of_derive (derives : listing.derive? = some derive) (cancellation : Cancellation)
    (document : Document) :
    let answer :=
      list listing.place
        (fromComments cancellation fun document collected =>
          derive document.tree.value document.config cancellation collected)
        document
    ListCall cancellation document listing answer.1 answer.2 := by
  intro answer
  have notComments : listing ≠ .comments := by
    rintro rfl
    cases derives
  cases holds : (listing.place.slot document).held with
  | some held =>
      have hits : answer = (.ok held, document) := list_of_held holds
      rw [hits]
      exact .hit holds
  | none =>
      have call :
          ListCall cancellation document .comments
            (document.listComments cancellation).1 (document.listComments cancellation).2 :=
        of_scan rfl cancellation document
      rcases listed : document.listComments cancellation with ⟨collected, between⟩
      rw [listed] at call
      cases collected with
      | error failure =>
          have fails : answer = (.error failure, between) :=
            list_of_error holds (fromComments_of_error listed)
          rw [fails]
          cases call with
          | refused noComments cancelled =>
              exact .refused holds cancelled fun _ => noComments
      | ok comments =>
          have sameTree : between.tree = document.tree := call.keeps.1
          have sameConfig : between.config = document.config := call.keeps.2.1
          have still : (listing.place.slot between).held = none := by
            rw [call.slot_eq notComments notComments, holds]
          cases made :
              derive document.tree.value document.config cancellation comments.value with
          | ok items =>
              have fills :
                  answer = (.ok ⟨between.nextInstance, items⟩, between.fill listing items) :=
                list_of_ok holds
                  (by rw [fromComments_of_ok listed, sameTree, sameConfig, made]) still
              rw [fills]
              exact .derived holds call derives made
          | error failure =>
              obtain ⟨rfl, rfl, notCommentTags⟩ := Listing.derive_error derives made
              obtain ⟨rfl, _⟩ := call.comments_of_cancelled
              have fails : answer = (.error .cancelled, between) :=
                list_of_error holds (by rw [fromComments_of_ok listed, made])
              rw [fails]
              exact .refused holds rfl fun same => absurd same notCommentTags

end ListCall

/-- Every call for one of the four lists ends in one of the four ways. -/
theorem listAnnotations_call (listing : Listing) (cancellation : Cancellation)
    (document : Document) :
    ∃ result after,
      Session.listAnnotations listing cancellation document = (listing.outcome result, after) ∧
        ListCall cancellation document listing result after := by
  cases listing with
  | comments => exact ⟨_, _, rfl, .of_scan rfl cancellation document⟩
  | tags => exact ⟨_, _, rfl, .of_scan rfl cancellation document⟩
  | commentTags =>
      have derives : Listing.commentTags.derive? = some _ := rfl
      refine ⟨(document.listCommentTags cancellation).1,
        (document.listCommentTags cancellation).2, rfl, ?_⟩
      exact .of_derive derives cancellation document
  | foldings =>
      have derives : Listing.foldings.derive? = some _ := rfl
      refine ⟨(document.listFoldings cancellation).1,
        (document.listFoldings cancellation).2, rfl, ?_⟩
      exact .of_derive derives cancellation document

end Document

end SourceAnnotations
