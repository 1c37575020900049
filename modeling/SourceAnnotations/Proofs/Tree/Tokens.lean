import SourceAnnotations.Proofs.Tree.Outermost
import SourceAnnotations.Proofs.Tree.Paths

/-!
# The token before a place

The search for the token before a place climbs to the parents and goes down into the siblings before
each of them, the last first.  The rows without children that it can come to are those that stand
before the place in the order of the text, so what it finds is the last of them that is no trivia.
-/

namespace SourceAnnotations

open Node

/-! ## The last of the wanted items -/

/-- Of items in increasing order the last wanted one is the greatest of those that are wanted. -/
theorem getLast?_filter_eq_some_iff {α : Type} {before : α → α → Prop} {wanted : α → Bool}
    (antisymmetric : ∀ first second, before first second → ¬ before second first) {items : List α}
    (increasing : items.Pairwise before) {item : α} :
    (items.filter wanted).getLast? = some item ↔
      item ∈ items ∧ wanted item ∧
        ∀ other ∈ items, wanted other → other = item ∨ before other item := by
  constructor
  · intro found
    obtain ⟨front, split⟩ := List.getLast?_eq_some_iff.mp found
    have isItem : item ∈ items.filter wanted := by
      rw [split]
      exact List.mem_append_right front List.mem_cons_self
    refine ⟨(List.mem_filter.mp isItem).1, (List.mem_filter.mp isItem).2, ?_⟩
    intro other isOther isWanted
    have isKept : other ∈ front ++ [item] := by
      rw [← split]
      exact List.mem_filter.mpr ⟨isOther, isWanted⟩
    have ordered := increasing.filter wanted
    rw [split] at ordered
    rcases List.mem_append.mp isKept with isEarlier | isLast
    · exact .inr ((List.pairwise_append.mp ordered).2.2 other isEarlier item List.mem_cons_self)
    · exact .inl (List.mem_singleton.mp isLast)
  · rintro ⟨isItem, isWanted, greatest⟩
    have isKept : item ∈ items.filter wanted := List.mem_filter.mpr ⟨isItem, isWanted⟩
    cases found : (items.filter wanted).getLast? with
    | none =>
        rw [List.getLast?_eq_none_iff.mp found] at isKept
        cases isKept
    | some last =>
        obtain ⟨front, split⟩ := List.getLast?_eq_some_iff.mp found
        have isLast : last ∈ items.filter wanted := by
          rw [split]
          exact List.mem_append_right front List.mem_cons_self
        have ordered := increasing.filter wanted
        rw [split] at ordered isKept
        rcases List.mem_append.mp isKept with isEarlier | isSame
        · have behind : before item last :=
            (List.pairwise_append.mp ordered).2.2 item isEarlier last List.mem_cons_self
          rcases greatest last (List.mem_filter.mp isLast).1 (List.mem_filter.mp isLast).2 with
            same | ahead
          · rw [same]
          · exact absurd ahead (antisymmetric _ _ behind)
        · rw [List.mem_singleton.mp isSame]

/-! ## Leaves among the places -/

theorem Node.leaves_eq_filter (node : Node) :
    node.leaves = node.preorder.filter fun row => row.children.isEmpty := by
  have ofAll (nodes : List Node)
      (each : ∀ node ∈ nodes, node.leaves = node.preorder.filter fun row => row.children.isEmpty) :
      nodes.flatMap leaves =
        (preorderOfAll nodes).filter fun row => row.children.isEmpty := by
    induction nodes with
    | nil => rfl
    | cons head tail inductionHypothesis =>
        obtain ⟨here, each⟩ := List.forall_mem_cons.mp each
        rw [List.flatMap_cons, preorderOfAll, List.filter_append, here, inductionHypothesis each]
  induction node with
  | mk row children inductionHypothesis =>
      by_cases childless : children = []
      · subst childless
        rfl
      · have parent : (mk row children).children ≠ [] := childless
        rw [leaves_of_parent parent, preorder, List.filter_cons_of_neg]
        · exact ofAll children inductionHypothesis
        · simpa using parent

namespace Cursor

theorem above_of_childrenFrom_eq {parent : Row} {above : List Frame} {earlier children : List Node}
    {child : Cursor} {before behind : List Cursor}
    (split : childrenFrom parent above earlier children = before ++ child :: behind) :
    child.above = ⟨parent, (before.map focus).reverse ++ earlier, behind.map focus⟩ :: above := by
  induction before generalizing earlier children with
  | nil =>
      cases children with
      | nil => cases split
      | cons head later =>
          obtain ⟨rfl, rfl⟩ := List.cons.inj split
          simp [map_focus_childrenFrom]
  | cons first before inductionHypothesis =>
      cases children with
      | nil => cases split
      | cons head later =>
          obtain ⟨rfl, rest⟩ := List.cons.inj split
          simpa using inductionHypothesis rest

/-- A child stands between the children before it and those behind it, each at its place. -/
theorem above_of_children_eq {cursor child : Cursor} {before behind : List Cursor}
    (split : cursor.children = before ++ child :: behind) :
    child.above =
      ⟨cursor.row, (before.map focus).reverse, behind.map focus⟩ :: cursor.above := by
  simpa using above_of_childrenFrom_eq split

variable {root : Node} {place : Cursor}

/-- The places before a place are its parents, which have children, and those whose leaves are the
leaves before it. -/
theorem exists_split_of_mem_placesIn (isPlace : place ∈ placesIn root) :
    ∃ front back, placesIn root = front ++ place :: back ∧
      leavesBefore place.above = (front.map focus).filter fun row => row.children.isEmpty := by
  suffices ∃ front back, placesIn root = front ++ (place.placesFrom ++ back) ∧
      leavesBefore place.above = (front.map focus).filter fun row => row.children.isEmpty by
    obtain ⟨front, back, split, before⟩ := this
    rw [placesFrom_eq, List.cons_append] at split
    exact ⟨front, _, split, before⟩
  refine forall_mem_places (motive := fun place => ∃ front back,
    placesIn root = front ++ (place.placesFrom ++ back) ∧
      leavesBefore place.above = (front.map focus).filter fun row => row.children.isEmpty)
    ?_ ?_ place isPlace
  · exact ⟨[], [], by simp [placesIn, atRoot], rfl⟩
  · rintro cursor child ⟨front, back, split, before⟩ isChild
    obtain ⟨earlier, later, siblings⟩ := List.append_of_mem isChild
    have parent : cursor.focus.children.isEmpty = false := by
      have notLeaf : cursor.focus.children ≠ [] := List.ne_nil_of_mem (focus_mem_children isChild)
      simpa using notLeaf
    have ofEarlier :
        (earlier.map focus).flatMap leaves =
          ((earlier.flatMap placesFrom).map focus).filter fun row => row.children.isEmpty := by
      rw [List.map_flatMap, List.filter_flatMap, List.flatMap_map]
      refine List.flatMap_congr fun place _ => ?_
      rw [placesFrom, map_focus_places, leaves_eq_filter]
    refine ⟨front ++ cursor :: earlier.flatMap placesFrom, later.flatMap placesFrom ++ back, ?_, ?_⟩
    · rw [split, placesFrom_eq cursor, siblings]
      simp
    · rw [above_of_children_eq siblings, leavesBefore, List.reverse_reverse, before, ofEarlier,
        List.map_append, List.map_cons, List.filter_append, List.filter_cons, parent,
        if_neg Bool.false_ne_true]

/-! ## The nearest token -/

/-- A row is a token of the tree that stands before a place, neither above nor below it. -/
structure IsTokenBefore (root : Node) (place token : Cursor) : Prop where
  inTree : token ∈ placesIn root
  before : token.IsBefore place
  notAbove : token ∉ place.ancestors
  notBelow : place ∉ token.ancestors
  childless : token.focus.children = []
  notComment : token.kind ≠ Kinds.comment
  /-- An empty token that the parser supplied does not count. -/
  notSupplied : ¬ (token.row.isMissing ∧ token.row.endByte ≤ token.row.startByte)

/-- Whether a row is a token: it has no children and is no trivia. -/
def isToken (cursor : Cursor) : Bool :=
  !cursor.focus.isTrivia && cursor.focus.children.isEmpty

theorem isToken_iff {cursor : Cursor} :
    cursor.isToken ↔
      cursor.focus.children = [] ∧ cursor.kind ≠ Kinds.comment ∧
        ¬ (cursor.row.isMissing ∧ cursor.row.endByte ≤ cursor.row.startByte) := by
  simp only [isToken, isTrivia, Cursor.kind, Cursor.row, Node.kind]
  grind

/-- A row before a place is above it only if it has children, and is never below it. -/
theorem isTokenBefore_iff {token : Cursor} :
    IsTokenBefore root place token ↔
      token ∈ placesIn root ∧ token.IsBefore place ∧ token.isToken := by
  rw [isToken_iff]
  constructor
  · intro isToken
    exact ⟨isToken.inTree, isToken.before, isToken.childless, isToken.notComment,
      isToken.notSupplied⟩
  · rintro ⟨inTree, before, childless, notComment, notSupplied⟩
    refine ⟨inTree, before, fun isAbove => ?_, fun isBelow => ?_, childless, notComment,
      notSupplied⟩
    · exact (of_mem_ancestors isAbove).1 childless
    · exact IsBefore.irrefl _ (before.trans (of_mem_ancestors isBelow).2)

/-- Of places in order those before one of them are the earlier ones. -/
theorem mem_front_iff {front back : List Cursor} {other : Cursor}
    (ordered : (front ++ place :: back).Pairwise IsBefore) :
    other ∈ front ↔ other ∈ front ++ place :: back ∧ other.IsBefore place := by
  obtain ⟨_, behind, ahead⟩ := List.pairwise_append.mp ordered
  constructor
  · intro isEarlier
    exact ⟨List.mem_append_left _ isEarlier, ahead other isEarlier place List.mem_cons_self⟩
  · rintro ⟨member, before⟩
    rcases List.mem_append.mp member with isEarlier | isLater
    · exact isEarlier
    · rcases List.mem_cons.mp isLater with rfl | isBehind
      · exact absurd before (IsBefore.irrefl other)
      · have after := (List.pairwise_cons.mp behind).1 other isBehind
        exact absurd (before.trans after) (IsBefore.irrefl other)

/-- The search finds the last token among the places before a place. -/
theorem exists_previousToken?_eq (isPlace : place ∈ placesIn root) :
    ∃ front : List Cursor, front.Pairwise IsBefore ∧
      (∀ other, IsTokenBefore root place other ↔ other ∈ front ∧ other.isToken) ∧
      place.previousToken? = ((front.filter isToken).getLast?).map focus := by
  obtain ⟨front, back, split, before⟩ := exists_split_of_mem_placesIn isPlace
  have ordered : (front ++ place :: back).Pairwise IsBefore := by
    rw [← split]
    exact places_pairwise_isBefore root []
  refine ⟨front, (List.pairwise_append.mp ordered).1, fun other => ?_, ?_⟩
  · rw [isTokenBefore_iff, mem_front_iff ordered, split, and_assoc]
  · rw [previousToken?, tokenBefore?_eq, before, List.filter_filter, List.filter_map,
      List.getLast?_map]
    rfl

/-- The token before a place is the last token of the tree before it, and there is none exactly when
no token of the tree stands before it. -/
theorem previous_token_is_nearest (root : Node) {place : Cursor} (isPlace : place ∈ placesIn root) :
    (∀ token, place.previousToken? = some token ↔
      ∃ found, IsTokenBefore root place found ∧ found.focus = token ∧
        ∀ other, IsTokenBefore root place other → other = found ∨ other.IsBefore found) ∧
    (place.previousToken? = none ↔ ∀ other, ¬ IsTokenBefore root place other) := by
  obtain ⟨front, ordered, isTokenBefore, searched⟩ := exists_previousToken?_eq isPlace
  have asymmetric : ∀ first second : Cursor, first.IsBefore second → ¬ second.IsBefore first :=
    fun first _ ahead behind => IsBefore.irrefl first (ahead.trans behind)
  refine ⟨fun token => ?_, ?_⟩
  · rw [searched, Option.map_eq_some_iff]
    refine exists_congr fun found => ?_
    rw [getLast?_filter_eq_some_iff asymmetric ordered, isTokenBefore]
    simp only [isTokenBefore, and_imp]
    constructor
    · rintro ⟨⟨isEarlier, isToken, nearest⟩, shown⟩
      exact ⟨⟨isEarlier, isToken⟩, shown, nearest⟩
    · rintro ⟨⟨isEarlier, isToken⟩, shown, nearest⟩
      exact ⟨⟨isEarlier, isToken, nearest⟩, shown⟩
  · rw [searched, Option.map_eq_none_iff, List.getLast?_eq_none_iff, List.filter_eq_nil_iff]
    simp only [isTokenBefore, not_and]

/-- A name, a comment, and a body that begins with a token the parser supplied. -/
def commentedBody : Node :=
  .mk ⟨"class_declaration", true, false, false, true, 0, 9, none⟩
    [.mk ⟨"identifier", true, false, false, false, 0, 1, some "name"⟩ [],
      .mk ⟨"comment", true, false, false, false, 2, 6, none⟩ [],
      .mk ⟨"declaration_list", true, false, false, true, 7, 9, some "body"⟩
        [.mk ⟨"identifier", true, true, false, true, 7, 7, none⟩ [],
          .mk ⟨"\x7b", false, false, false, false, 7, 8, none⟩ []]]

/-- Before the brace stands the name, and before the name there is no token. -/
theorem previous_token_is_nearest_brace :
    (∃ brace ∈ placesIn commentedBody, brace.kind = Kinds.openBrace ∧
      ∃ name, IsTokenBefore commentedBody brace name ∧ name.row.field = some "name" ∧
        ∀ other, IsTokenBefore commentedBody brace other → other = name ∨ other.IsBefore name) ∧
    ∃ name ∈ placesIn commentedBody, name.row.field = some "name" ∧
      ∀ other, ¬ IsTokenBefore commentedBody name other := by
  constructor
  · have isPlace : (placesIn commentedBody)[5] ∈ placesIn commentedBody := List.getElem_mem _
    obtain ⟨name, isBefore, shown, nearest⟩ :=
      ((previous_token_is_nearest commentedBody isPlace).1
        (.mk ⟨"identifier", true, false, false, false, 0, 1, some "name"⟩ [])).mp rfl
    refine ⟨_, isPlace, rfl, name, isBefore, ?_, nearest⟩
    rw [Cursor.row, shown]
    rfl
  · have isPlace : (placesIn commentedBody)[1] ∈ placesIn commentedBody := List.getElem_mem _
    exact ⟨_, isPlace, rfl, (previous_token_is_nearest commentedBody isPlace).2.mp rfl⟩

end Cursor

end SourceAnnotations
