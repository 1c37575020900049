import Mathlib.Data.List.Sort
import SourceAnnotations.Proofs.Region.Span
import SourceAnnotations.Tag.Throws

/-!
# Tags of throws

A throw is tagged when the first thing that it throws is a new object of a type that the
configuration names, and the tag quotes the first argument of the object if there is one.  The rows
are looked at in the order of the text and their tags are sorted by region, so each tag keeps the
place of its row for the ties.  Rows that are left out take their tags out of the list and change
nothing else.
-/

namespace SourceAnnotations

/-! ## The first of a list -/

/-- The item is the first of the list that is wanted. -/
def IsFirst {α : Type} (wanted : α → Bool) (items : List α) (item : α) : Prop :=
  ∃ front back, items = front ++ item :: back ∧ wanted item = true ∧
    ∀ other ∈ front, wanted other = false

theorem find?_eq_some_iff_isFirst {α : Type} {wanted : α → Bool} {items : List α} {item : α} :
    items.find? wanted = some item ↔ IsFirst wanted items item := by
  rw [List.find?_eq_some_iff_append]
  simp only [Bool.not_eq_true']
  constructor
  · rintro ⟨isWanted, front, back, split, unwanted⟩
    exact ⟨front, back, split, isWanted, unwanted⟩
  · rintro ⟨front, back, split, isWanted, unwanted⟩
    exact ⟨isWanted, front, back, split, unwanted⟩

/-! ## Throws -/

theorem Kinds.throwStatement_ne_throwExpression :
    Kinds.throwStatement ≠ Kinds.throwExpression := by
  decide

namespace SyntaxTree

/-- The argument is the first of those with which an object is created. -/
def IsFirstArgument (created argument : Node) : Prop :=
  ∃ arguments, IsFirst (Node.hasField "arguments") created.children arguments ∧
    IsFirst (fun child => child.row.isNamed && !child.isTrivia && child.kind = Kinds.argument)
      arguments.children argument

/-- What is thrown is the first child that has a name and is no trivia.  It is a new object of a
type that the configuration names, white space in the type apart. -/
structure Throws (tree : SyntaxTree) (config : AnnotationConfig) (throwing created : Node) :
    Prop where
  isThrown : IsFirst (fun child => child.row.isNamed && !child.isTrivia) throwing.children created
  isCreation : created.kind = Kinds.objectCreation
  isNamed : ∃ type, IsFirst (Node.hasField "type") created.children type ∧
    ∃ name ∈ config.notImplementedTypeNames,
      name.toList = (tree.nodeText type).filter fun c => !isWhiteSpace c

/-- The message about an object that is created quotes its first argument, if it has any. -/
inductive IsThrowMessage (tree : SyntaxTree) (created : Node) : String → Prop
  | quoting {argument : Node} (isFirst : IsFirstArgument created argument) :
      IsThrowMessage tree created
        ("NotImplementedException(" ++ String.ofList (tree.nodeText argument) ++ ") thrown.")
  | bare (none : ∀ argument, ¬ IsFirstArgument created argument) :
      IsThrowMessage tree created "NotImplementedException thrown."

variable {tree : SyntaxTree} {config : AnnotationConfig} {throwing created argument : Node}
  {tag : Tag}

theorem firstArgument?_eq_some_iff {quoted : Text} :
    tree.firstArgument? created = some quoted ↔
      ∃ argument, IsFirstArgument created argument ∧ tree.nodeText argument = quoted := by
  simp only [firstArgument?, Option.bind_eq_bind, Option.bind_eq_some_iff, Option.pure_def,
    Option.some.injEq, Node.childByField?, Node.namedChildren, List.find?_filter,
    Bool.decide_and, Bool.decide_eq_true, find?_eq_some_iff_isFirst, IsFirstArgument]
  constructor
  · rintro ⟨arguments, areArguments, argument, isArgument, quoted⟩
    exact ⟨argument, ⟨arguments, areArguments, isArgument⟩, quoted⟩
  · rintro ⟨argument, ⟨arguments, areArguments, isArgument⟩, quoted⟩
    exact ⟨arguments, areArguments, argument, isArgument, quoted⟩

theorem isThrowMessage_iff {message : String} (region : Region) :
    tree.IsThrowMessage created message ↔
      message = (Tag.notImplemented ((tree.firstArgument? created).map String.ofList)
        region).message := by
  constructor
  · intro isMessage
    cases isMessage with
    | quoting isFirst =>
        rw [firstArgument?_eq_some_iff.mpr ⟨_, isFirst, rfl⟩]
        rfl
    | bare none =>
        have unquoted : tree.firstArgument? created = Option.none := by
          refine Option.eq_none_iff_forall_ne_some.mpr fun quoted found => ?_
          obtain ⟨argument, isFirst, _⟩ := firstArgument?_eq_some_iff.mp found
          exact none argument isFirst
        rw [unquoted]
        rfl
  · rintro rfl
    cases found : tree.firstArgument? created with
    | none =>
        refine .bare fun argument isFirst => ?_
        rw [firstArgument?_eq_some_iff.mpr ⟨argument, isFirst, rfl⟩] at found
        cases found
    | some quoted =>
        obtain ⟨argument, isFirst, rfl⟩ := firstArgument?_eq_some_iff.mp found
        exact .quoting isFirst

/-- The label, the region and the message of the tag of a throw. -/
structure HasThrowTag (tree : SyntaxTree) (config : AnnotationConfig) (throwing : Node)
    (tag : Tag) : Prop where
  label : tag.tag = "High"
  region : tag.region = tree.nodeRegion throwing
  message : ∃ created, tree.Throws config throwing created ∧ tree.IsThrowMessage created tag.message

theorem throws_iff :
    tree.Throws config throwing created ↔
      throwing.namedChildren.head? = some created ∧ created.kind = Kinds.objectCreation ∧
        ∃ type, created.childByField? "type" = some type ∧
          config.isNotImplementedType (tree.nodeText type) = true := by
  simp only [Node.namedChildren, List.head?_filter, Node.childByField?, find?_eq_some_iff_isFirst,
    AnnotationConfig.isNotImplementedType, List.any_eq_true, decide_eq_true_eq]
  constructor
  · intro throws
    exact ⟨throws.isThrown, throws.isCreation, throws.isNamed⟩
  · rintro ⟨isThrown, isCreation, isNamed⟩
    exact ⟨isThrown, isCreation, isNamed⟩

theorem throwTag?_eq_some_iff :
    tree.throwTag? config throwing = some tag ↔ tree.HasThrowTag config throwing tag := by
  simp only [throwTag?, Option.bind_eq_bind, Option.bind_eq_some_iff, Option.guard_eq_some',
    Option.pure_def, Option.some.injEq]
  constructor
  · rintro ⟨created, isThrown, _, isCreation, type, isType, _, isNamed, rfl⟩
    exact ⟨rfl, rfl, created, throws_iff.mpr ⟨isThrown, isCreation, type, isType, isNamed⟩,
      (isThrowMessage_iff (tree.nodeRegion throwing)).mpr rfl⟩
  · rintro ⟨label, region, created, throws, isMessage⟩
    obtain ⟨isThrown, isCreation, type, isType, isNamed⟩ := throws_iff.mp throws
    refine ⟨created, isThrown, (), isCreation, type, isType, (), isNamed, ?_⟩
    obtain ⟨_, _, _⟩ := tag
    obtain rfl : _ = "High" := label
    obtain rfl : _ = tree.nodeRegion throwing := region
    have isQuoted := (isThrowMessage_iff (tree.nodeRegion throwing)).mp isMessage
    exact congrArg (fun message => Tag.mk "High" message (tree.nodeRegion throwing)) isQuoted.symm

/-- A row has at most one tag. -/
theorem HasThrowTag.unique {other : Tag} (has : tree.HasThrowTag config throwing tag)
    (hasOther : tree.HasThrowTag config throwing other) : tag = other := by
  rw [← throwTag?_eq_some_iff] at has hasOther
  exact Option.some.inj (has.symm.trans hasOther)

/-! ## Rows that are tagged -/

/-- The row is a thrown statement, or a thrown expression and the configuration wants these too. -/
structure IsCountedThrow (config : AnnotationConfig) (throwing : Node) : Prop where
  isNamed : throwing.row.isNamed = true
  isThrow : throwing.kind = Kinds.throwStatement ∨
    throwing.kind = Kinds.throwExpression ∧ config.tagThrowExpressions = true

/-- The row counts and throws a new object of a type that the configuration names. -/
def IsTaggedRow (tree : SyntaxTree) (config : AnnotationConfig) (throwing : Node) : Prop :=
  IsCountedThrow config throwing ∧ ∃ created, tree.Throws config throwing created

/-- Whether a row is looked at. -/
def isLookedAt (config : AnnotationConfig) (node : Node) : Bool :=
  node.row.isNamed && [Kinds.throwStatement, Kinds.throwExpression].contains node.kind &&
    config.countsThrow node

theorem isLookedAt_iff : isLookedAt config throwing = true ↔ IsCountedThrow config throwing := by
  simp only [isLookedAt, AnnotationConfig.countsThrow, Bool.and_eq_true, Bool.or_eq_true,
    List.contains_cons, List.contains_nil, beq_iff_eq, decide_eq_true_eq, Bool.or_false]
  constructor
  · rintro ⟨⟨isNamed, isStatement | isExpression⟩, counts⟩
    · exact ⟨isNamed, .inl isStatement⟩
    · exact ⟨isNamed, .inr ⟨isExpression, counts.resolve_left fun other => other isExpression⟩⟩
  · rintro ⟨isNamed, isStatement | ⟨isExpression, isWanted⟩⟩
    · exact ⟨⟨isNamed, .inl isStatement⟩,
        .inl (isStatement ▸ Kinds.throwStatement_ne_throwExpression)⟩
    · exact ⟨⟨isNamed, .inr isExpression⟩, .inr isWanted⟩

/-- A row that throws a new object of a named type has a tag. -/
theorem exists_hasThrowTag (throws : tree.Throws config throwing created) :
    ∃ tag, tree.HasThrowTag config throwing tag :=
  ⟨.notImplemented ((tree.firstArgument? created).map String.ofList) (tree.nodeRegion throwing),
    rfl, rfl, created, throws, (isThrowMessage_iff (tree.nodeRegion throwing)).mpr rfl⟩

end SyntaxTree

/-! ## Tags with the places of their rows -/

/-- A tag of a throw with the row and its place in the order of the text. -/
structure PlacedTag where
  position : Nat
  throwing : Node
  tag : Tag

namespace PlacedTag

def region (placed : PlacedTag) : Region :=
  placed.tag.region

/-- Tags are in the order of their regions, and those of one region in the order of their rows. -/
def Precedes (earlier later : PlacedTag) : Prop :=
  earlier.region.IsBefore later.region ∨
    earlier.region = later.region ∧ earlier.position < later.position

instance : Std.Irrefl Precedes where
  irrefl placed precedes := by
    rcases precedes with before | ⟨_, before⟩
    · exact before.ne rfl
    · exact Nat.lt_irrefl _ before

instance : Std.Antisymm Precedes where
  antisymm earlier later forward backward := by
    rcases forward with before | ⟨same, before⟩ <;> rcases backward with after | ⟨same', after⟩
    · exact absurd rfl (before.trans after).ne
    · exact absurd same'.symm before.ne
    · exact absurd same.symm after.ne
    · exact absurd after (Nat.lt_asymm before)

end PlacedTag

namespace SyntaxTree

/-- The tag of a row that is looked at. -/
def placedTag? (tree : SyntaxTree) (config : AnnotationConfig) (row : Node × Nat) :
    Option PlacedTag :=
  if isLookedAt config row.1 then (tree.throwTag? config row.1).map (⟨row.2, row.1, ·⟩) else none

/-- The tags of throws in the order of the text. -/
def foundTags (tree : SyntaxTree) (config : AnnotationConfig) : List PlacedTag :=
  tree.root.preorder.zipIdx.filterMap (tree.placedTag? config)

/-- The tags of throws in the order of their regions. -/
def placedTags (tree : SyntaxTree) (config : AnnotationConfig) : List PlacedTag :=
  sortByRegion PlacedTag.region (tree.foundTags config)

variable {tree : SyntaxTree} {config : AnnotationConfig} {placed : PlacedTag}

theorem placedTag?_eq_some_iff {row : Node × Nat} :
    tree.placedTag? config row = some placed ↔
      placed.throwing = row.1 ∧ placed.position = row.2 ∧ IsCountedThrow config row.1 ∧
        tree.HasThrowTag config row.1 placed.tag := by
  rw [← throwTag?_eq_some_iff, ← isLookedAt_iff, placedTag?, Option.ite_none_right_eq_some,
    Option.map_eq_some_iff]
  constructor
  · rintro ⟨looked, tag, isTag, rfl⟩
    exact ⟨rfl, rfl, looked, isTag⟩
  · obtain ⟨position, throwing, tag⟩ := placed
    rintro ⟨rfl, rfl, looked, isTag⟩
    exact ⟨looked, tag, isTag, rfl⟩

theorem mem_foundTags_iff :
    placed ∈ tree.foundTags config ↔
      tree.root.preorder[placed.position]? = some placed.throwing ∧
        IsCountedThrow config placed.throwing ∧
          tree.HasThrowTag config placed.throwing placed.tag := by
  rw [foundTags, List.mem_filterMap]
  constructor
  · rintro ⟨row, isRow, made⟩
    obtain ⟨throwing, position, isCounted, isTag⟩ := placedTag?_eq_some_iff.mp made
    rw [throwing, position]
    exact ⟨List.mem_zipIdx_iff_getElem?.mp isRow, isCounted, isTag⟩
  · rintro ⟨isRow, isCounted, isTag⟩
    exact ⟨(placed.throwing, placed.position), List.mk_mem_zipIdx_iff_getElem?.mpr isRow,
      placedTag?_eq_some_iff.mpr ⟨rfl, rfl, isCounted, isTag⟩⟩

theorem foundTags_pairwise (tree : SyntaxTree) (config : AnnotationConfig) :
    (tree.foundTags config).Pairwise fun earlier later => earlier.position < later.position := by
  have inOrder : tree.root.preorder.zipIdx.Pairwise fun earlier later => earlier.2 < later.2 := by
    rw [← List.pairwise_map (f := Prod.snd) (R := (· < ·)), List.zipIdx_map_snd]
    exact List.pairwise_lt_range'
  rw [foundTags, List.pairwise_filterMap]
  refine inOrder.imp fun before earlier isEarlier later isLater => ?_
  rw [(placedTag?_eq_some_iff.mp isEarlier).2.1, (placedTag?_eq_some_iff.mp isLater).2.1]
  exact before

/-- The tags without their places. -/
theorem foundTags_map_tag (tree : SyntaxTree) (config : AnnotationConfig) :
    (tree.foundTags config).map PlacedTag.tag =
      ((tree.namedRows [Kinds.throwStatement, Kinds.throwExpression]).filter
        config.countsThrow).filterMap (tree.throwTag? config) := by
  have ofRow (row : Node × Nat) : (tree.placedTag? config row).map PlacedTag.tag =
      if isLookedAt config row.1 then tree.throwTag? config row.1 else none := by
    rw [placedTag?]
    split
    · rw [Option.map_map]
      exact Option.map_id_apply
    · rfl
  rw [foundTags, List.map_filterMap, namedRows, List.filter_filter, List.filterMap_filter]
  simp only [ofRow]
  conv_rhs => rw [← List.zipIdx_map_fst 0 tree.root.preorder, List.filterMap_map]
  refine List.filterMap_congr fun row _ => ?_
  simp only [Function.comp, isLookedAt, Bool.and_comm]

theorem throwTags_live (tree : SyntaxTree) (config : AnnotationConfig) :
    tree.throwTags config .live = .ok ((tree.placedTags config).map PlacedTag.tag) := by
  have sorted : (tree.placedTags config).map PlacedTag.tag =
      sortByRegion Tag.region ((tree.foundTags config).map PlacedTag.tag) :=
    (sortByRegion_map PlacedTag.tag (tree.foundTags config)).symm
  rw [sorted, foundTags_map_tag]
  rfl

theorem mem_placedTags_iff :
    placed ∈ tree.placedTags config ↔
      tree.root.preorder[placed.position]? = some placed.throwing ∧
        IsCountedThrow config placed.throwing ∧
          tree.HasThrowTag config placed.throwing placed.tag := by
  rw [placedTags, mem_sortByRegion, mem_foundTags_iff]

theorem placedTags_pairwise (tree : SyntaxTree) (config : AnnotationConfig) :
    (tree.placedTags config).Pairwise PlacedTag.Precedes :=
  sortByRegion_pairwise_of_pairwise (tree.foundTags_pairwise config)

/-- The tags are in order, and each row that is tagged has one of them. -/
structure AreThrowTags (tree : SyntaxTree) (config : AnnotationConfig)
    (placed : List PlacedTag) : Prop where
  inOrder : placed.Pairwise PlacedTag.Precedes
  ofRow : ∀ entry ∈ placed, tree.root.preorder[entry.position]? = some entry.throwing ∧
    tree.IsTaggedRow config entry.throwing ∧ tree.HasThrowTag config entry.throwing entry.tag
  existsUnique : ∀ position throwing, tree.root.preorder[position]? = some throwing →
    tree.IsTaggedRow config throwing → ∃! entry, entry ∈ placed ∧ entry.position = position

theorem areThrowTags_placedTags (tree : SyntaxTree) (config : AnnotationConfig) :
    tree.AreThrowTags config (tree.placedTags config) where
  inOrder := tree.placedTags_pairwise config
  ofRow entry isPlaced := by
    obtain ⟨isRow, isCounted, isTag⟩ := mem_placedTags_iff.mp isPlaced
    obtain ⟨created, throws, _⟩ := isTag.message
    exact ⟨isRow, ⟨isCounted, created, throws⟩, isTag⟩
  existsUnique position throwing isRow isTagged := by
    obtain ⟨isCounted, created, throws⟩ := isTagged
    obtain ⟨tag, isTag⟩ := exists_hasThrowTag throws
    refine ⟨⟨position, throwing, tag⟩,
      ⟨mem_placedTags_iff.mpr ⟨isRow, isCounted, isTag⟩, rfl⟩, ?_⟩
    rintro ⟨_, other, otherTag⟩ ⟨isPlaced, rfl⟩
    obtain ⟨isRow', _, isTag'⟩ := mem_placedTags_iff.mp isPlaced
    obtain rfl : throwing = other := Option.some.inj (isRow.symm.trans isRow')
    obtain rfl : tag = otherTag := isTag.unique isTag'
    rfl

/-! ## Thrown expressions left out -/

/-- What counts without thrown expressions is what counts and is none of them. -/
theorem isCountedThrow_withoutExpressions_iff {throwing : Node} :
    IsCountedThrow (config.setTagThrowExpressions false) throwing ↔
      IsCountedThrow config throwing ∧ throwing.kind ≠ Kinds.throwExpression := by
  constructor
  · rintro ⟨isNamed, isStatement | ⟨_, isWanted⟩⟩
    · exact ⟨⟨isNamed, .inl isStatement⟩, isStatement ▸ Kinds.throwStatement_ne_throwExpression⟩
    · cases isWanted
  · rintro ⟨⟨isNamed, isStatement | ⟨isExpression, _⟩⟩, noExpression⟩
    · exact ⟨isNamed, .inl isStatement⟩
    · exact absurd isExpression noExpression

/-- The tag of a row does not depend on which rows count. -/
theorem hasThrowTag_withoutExpressions_iff {throwing : Node} {tag : Tag} :
    tree.HasThrowTag (config.setTagThrowExpressions false) throwing tag ↔
      tree.HasThrowTag config throwing tag := by
  rw [← throwTag?_eq_some_iff, ← throwTag?_eq_some_iff]
  rfl

theorem placedTags_withoutExpressions (tree : SyntaxTree) (config : AnnotationConfig) :
    tree.placedTags (config.setTagThrowExpressions false) =
      (tree.placedTags config).filter fun entry => entry.throwing.kind ≠ Kinds.throwExpression := by
  refine List.Pairwise.eq_of_mem_iff (tree.placedTags_pairwise _)
    ((tree.placedTags_pairwise config).filter _) fun entry => ?_
  rw [List.mem_filter, mem_placedTags_iff, mem_placedTags_iff,
    isCountedThrow_withoutExpressions_iff, hasThrowTag_withoutExpressions_iff, decide_eq_true_eq]
  constructor
  · rintro ⟨isRow, ⟨isCounted, noExpression⟩, isTag⟩
    exact ⟨⟨isRow, isCounted, isTag⟩, noExpression⟩
  · rintro ⟨⟨isRow, isCounted, isTag⟩, noExpression⟩
    exact ⟨isRow, ⟨isCounted, noExpression⟩, isTag⟩

/-- Each throw of a new object of a named type has one tag, in the order of their regions and then
of the rows.  Without thrown expressions the tags are the same ones less those of thrown
expressions. -/
theorem throw_tags_are_those_of_throws (tree : SyntaxTree) (config : AnnotationConfig) :
    ∃ placed, tree.throwTags config .live = .ok (placed.map PlacedTag.tag) ∧
      tree.AreThrowTags config placed ∧
        tree.throwTags (config.setTagThrowExpressions false) .live =
          .ok ((placed.filter fun entry => entry.throwing.kind ≠ Kinds.throwExpression).map
            PlacedTag.tag) := by
  refine ⟨tree.placedTags config, tree.throwTags_live config,
    tree.areThrowTags_placedTags config, ?_⟩
  rw [throwTags_live, placedTags_withoutExpressions]

end SyntaxTree

end SourceAnnotations
