import Mathlib.Data.List.Induction
import Mathlib.Data.Option.Basic
import SourceAnnotations.Fold.Collect
import SourceAnnotations.Proofs.Fold.Imports
import SourceAnnotations.Proofs.Fold.Normal
import SourceAnnotations.Proofs.Fold.Pairs
import SourceAnnotations.Proofs.Tree.Places

/-!
# What produces folds

Folds have four producers: braces, using directives, pairs of region directives and comments.  Each
is described here without the walk that serves three of them at once.  The induction over the places
of the walk shows that its state is what the producers have made of the places so far: the open
regions are those of the directives without a partner yet, and the folds are those of the scopes,
the braces and the pairs.
-/

namespace SourceAnnotations

/-! ## The producers -/

namespace Cursor

/-- Whether a row is a directive that begins or ends a region, where such regions fold. -/
def isDirective (config : AnnotationConfig) (cursor : Cursor) : Bool :=
  config.foldUserRegions && (cursor.focus.beginsRegion || cursor.focus.endsRegion)

/-- The scope that a row is or has as its body, in which using directives count. -/
def usingScope? (cursor : Cursor) : Option Node :=
  if cursor.kind = Kinds.compilationUnit || cursor.kind = Kinds.fileScopedNamespace then
    some cursor.focus
  else if cursor.kind = Kinds.namespaceDeclaration then
    cursor.body?.map Cursor.focus
  else
    none

end Cursor

/-- The directives among some places, in order. -/
def directives (config : AnnotationConfig) (places : List Cursor) : List Node :=
  (places.filter (·.isDirective config)).map Cursor.focus

namespace SyntaxTree

/-- The places whose rows may produce folds: all but those below a directive. -/
def foldPlaces (tree : SyntaxTree) (config : AnnotationConfig) : List Cursor :=
  Cursor.places (·.isDirective config) tree.root []

/-- The folds that a tree and its comments produce, whether they span lines or not. -/
inductive Produces (tree : SyntaxTree) (comments : List Comment) (config : AnnotationConfig) :
    Fold → Prop
  | braces {place : Cursor} {kind : FoldKind} {region : Region}
      (found : place ∈ tree.foldPlaces config) (hasKind : braceFoldKind? place.kind = some kind)
      (between : tree.braceRegion? place = some region) :
      Produces tree comments config (.plain region kind)
  | imports {place : Cursor} {scope : Node} {part : List Node} {first last : Node}
      {rest : List Node} (found : place ∈ tree.foldPlaces config)
      (isScope : place.usingScope? = some scope) (isPart : part ∈ scope.scopeParts)
      (run : part.takeWhile Node.isUsing = first :: rest) (isLast : rest.getLast? = some last) :
      Produces tree comments config (tree.importsFold first last)
  | userRegion {opening closing : Node}
      (paired : RegionDirectives.Paired (directives config (tree.foldPlaces config)) opening
        closing) :
      Produces tree comments config ((tree.openRegion opening).fold tree closing)
  | comment {fold : Fold} (foldsComments : config.foldComments)
      (found : fold ∈ commentFolds comments config.collapseDocComments) :
      Produces tree comments config fold

/-! ## What one visit does -/

variable {tree : SyntaxTree} {config : AnnotationConfig} {cursor : Cursor} {fold : Fold}

/-- A directive has no kind of brace fold and no scope. -/
theorem of_isDirective (directive : cursor.isDirective config) :
    braceFoldKind? cursor.kind = none ∧ cursor.usingScope? = none := by
  have isKind : cursor.kind ∈ Kinds.regionDirectives ++ Kinds.endRegionDirectives := by
    rw [Cursor.isDirective, Bool.and_eq_true, Bool.or_eq_true, Node.beginsRegion, Node.endsRegion,
      List.contains_iff_mem, List.contains_iff_mem] at directive
    exact List.mem_append.mpr directive.2
  have others : ∀ kind ∈ Kinds.regionDirectives ++ Kinds.endRegionDirectives,
      braceFoldKind? kind = none ∧ kind ≠ Kinds.compilationUnit ∧
        kind ≠ Kinds.fileScopedNamespace ∧ kind ≠ Kinds.namespaceDeclaration := by
    decide
  obtain ⟨noFold, noUnit, noFileScope, noNamespace⟩ := others cursor.kind isKind
  exact ⟨noFold, by simp [Cursor.usingScope?, noUnit, noFileScope, noNamespace]⟩

theorem mem_scopeFolds_iff :
    fold ∈ tree.scopeFolds cursor ↔
      ∃ scope, cursor.usingScope? = some scope ∧ fold ∈ tree.usingFolds scope := by
  rw [scopeFolds, Cursor.usingScope?]
  split
  · simp
  · split
    · cases cursor.body? <;> simp
    · simp

theorem braceFold?_eq_some_iff :
    tree.braceFold? cursor = some fold ↔
      ∃ kind region, braceFoldKind? cursor.kind = some kind ∧
        tree.braceRegion? cursor = some region ∧ region.start.line ≠ region.stop.line ∧
          fold = .plain region kind := by
  simp only [braceFold?, Option.bind_eq_bind, Option.bind_eq_some_iff, Option.pure_def,
    Option.some.injEq, guard]
  constructor
  · rintro ⟨kind, hasKind, region, between, _, checked, rfl⟩
    split at checked
    · next differ => exact ⟨kind, region, hasKind, between, differ, rfl⟩
    · cases checked
  · rintro ⟨kind, region, hasKind, between, differ, rfl⟩
    exact ⟨kind, hasKind, region, between, (), if_pos differ, rfl⟩

theorem scopeFolds_of_isDirective (directive : cursor.isDirective config) :
    tree.scopeFolds cursor = [] := by
  refine List.eq_nil_iff_forall_not_mem.mpr fun fold found => ?_
  obtain ⟨scope, isScope, _⟩ := mem_scopeFolds_iff.mp found
  rw [(of_isDirective directive).2] at isScope
  cases isScope

theorem braceFold?_of_isDirective (directive : cursor.isDirective config) :
    tree.braceFold? cursor = none := by
  rw [braceFold?, (of_isDirective directive).1]
  rfl

/-- A visit to a directive begins or ends a region and goes on behind it, a visit to another row
adds its folds and goes on below it. -/
theorem visitFolds_eq (scan : FoldScan) :
    tree.visitFolds config scan cursor =
      if cursor.isDirective config then
        (if cursor.focus.beginsRegion then scan.beginRegion (tree.openRegion cursor.focus)
          else scan.endRegion tree cursor.focus, .skip)
      else (scan.add (tree.scopeFolds cursor ++ (tree.braceFold? cursor).toList), .descend) := by
  change (if config.foldUserRegions && cursor.focus.beginsRegion then _ else
    if config.foldUserRegions && cursor.focus.endsRegion then _ else _ : FoldScan × Visit) = _
  rw [Cursor.isDirective]
  cases config.foldUserRegions <;> cases cursor.focus.beginsRegion <;>
    cases cursor.focus.endsRegion <;> rfl

theorem visitFolds_decides (tree : SyntaxTree) (config : AnnotationConfig) :
    Cursor.Decides (·.isDirective config) (tree.visitFolds config) := by
  intro scan cursor
  rw [visitFolds_eq]
  split <;> rfl

/-! ## What the whole walk does -/

/-- The state of the walk after some places. -/
def scanned (tree : SyntaxTree) (config : AnnotationConfig) (places : List Cursor) : FoldScan :=
  places.foldl (fun scan place => (tree.visitFolds config scan place).1) .empty

/-- The walk ends in the state after all places that may produce folds. -/
theorem walk_visitFolds (tree : SyntaxTree) (config : AnnotationConfig) :
    Cursor.walk (tree.visitFolds config) .empty (.atRoot tree.root) =
      tree.scanned config (tree.foldPlaces config) :=
  Cursor.walk_eq_foldl (visitFolds_decides tree config) .empty tree.root

/-- The folds of the scopes and the braces at some places. -/
def rowFolds (tree : SyntaxTree) (places : List Cursor) : List Fold :=
  places.flatMap fun place => tree.scopeFolds place ++ (tree.braceFold? place).toList

/-- The folds of the pairs among some directives. -/
def IsPairFold (tree : SyntaxTree) (directives : List Node) (fold : Fold) : Prop :=
  ∃ opening closing, RegionDirectives.Paired directives opening closing ∧
    fold = (tree.openRegion opening).fold tree closing

variable {places : List Cursor}

theorem scanned_concat (places : List Cursor) (last : Cursor) :
    tree.scanned config (places ++ [last]) =
      (tree.visitFolds config (tree.scanned config places) last).1 := by
  rw [scanned, List.foldl_append]
  rfl

theorem rowFolds_concat (places : List Cursor) (last : Cursor) :
    tree.rowFolds (places ++ [last]) =
      tree.rowFolds places ++ (tree.scopeFolds last ++ (tree.braceFold? last).toList) := by
  rw [rowFolds, List.flatMap_append, List.flatMap_singleton]
  rfl

/-- A directive has no folds of its own. -/
theorem rowFolds_concat_of_isDirective (directive : cursor.isDirective config) :
    tree.rowFolds (places ++ [cursor]) = tree.rowFolds places := by
  rw [rowFolds_concat, scopeFolds_of_isDirective directive, braceFold?_of_isDirective directive,
    Option.toList_none, List.append_nil, List.append_nil]

theorem directives_concat (places : List Cursor) (last : Cursor) :
    directives config (places ++ [last]) =
      directives config places ++ if last.isDirective config then [last.focus] else [] := by
  rw [directives, List.filter_append, List.map_append, List.filter_cons, List.filter_nil]
  cases last.isDirective config <;> rfl

theorem begins_or_ends_of_mem_directives :
    ∀ directive ∈ directives config places, directive.beginsRegion ∨ directive.endsRegion := by
  rintro _ found
  obtain ⟨place, kept, rfl⟩ := List.mem_map.mp found
  have isDirective := (List.mem_filter.mp kept).2
  rw [Cursor.isDirective, Bool.and_eq_true, Bool.or_eq_true] at isDirective
  exact isDirective.2

/-- One more directive adds the fold of the latest open one when it ends a region. -/
theorem isPairFold_concat_iff {directives : List Node} {last : Node}
    (all : ∀ directive ∈ directives ++ [last], directive.beginsRegion ∨ directive.endsRegion) :
    tree.IsPairFold (directives ++ [last]) fold ↔
      tree.IsPairFold directives fold ∨
        (last.endsRegion ∧ ∃ opening opened,
          RegionDirectives.unclosed directives = opening :: opened ∧
            fold = (tree.openRegion opening).fold tree last) := by
  constructor
  · rintro ⟨opening, closing, paired, rfl⟩
    rcases (RegionDirectives.paired_concat_iff all).mp paired with
      earlier | ⟨rfl, ends, opened, latest⟩
    · exact .inl ⟨opening, closing, earlier, rfl⟩
    · exact .inr ⟨ends, opening, opened, latest, rfl⟩
  · rintro (⟨opening, closing, paired, rfl⟩ | ⟨ends, opening, opened, latest, rfl⟩)
    · exact ⟨opening, closing, (RegionDirectives.paired_concat_iff all).mpr (.inl paired), rfl⟩
    · exact ⟨opening, last,
        (RegionDirectives.paired_concat_iff all).mpr (.inr ⟨rfl, ends, opened, latest⟩), rfl⟩

/-- After some places the open regions are those of the directives without a partner so far, and the
folds are those of the rows and the pairs. -/
theorem scanned_places (places : List Cursor) :
    (tree.scanned config places).openRegions =
        (RegionDirectives.unclosed (directives config places)).map tree.openRegion ∧
      ∀ fold, fold ∈ (tree.scanned config places).folds ↔
        fold ∈ tree.rowFolds places ∨ tree.IsPairFold (directives config places) fold := by
  induction places using List.reverseRecOn with
  | nil =>
      refine ⟨rfl, fun fold => ⟨fun none => absurd none List.not_mem_nil, ?_⟩⟩
      rintro (none | ⟨_, _, ⟨front, inner, back, split, _⟩, _⟩)
      · cases none
      · exact absurd split (by simp [directives])
  | append_singleton places last inductionHypothesis =>
      obtain ⟨openSoFar, foldsSoFar⟩ := inductionHypothesis
      have all : ∀ directive ∈ directives config (places ++ [last]),
          directive.beginsRegion ∨ directive.endsRegion :=
        begins_or_ends_of_mem_directives
      rw [directives_concat] at all
      rw [scanned_concat, visitFolds_eq, directives_concat]
      by_cases isDirective : last.isDirective config
      · rw [if_pos isDirective] at all
        rw [if_pos isDirective, if_pos isDirective, rowFolds_concat_of_isDirective isDirective,
          RegionDirectives.unclosed_concat, RegionDirectives.next]
        simp only [isPairFold_concat_iff all]
        by_cases begins : last.focus.beginsRegion
        · have continues : last.focus.endsRegion = false := by
            by_contra ends
            rw [Node.not_beginsRegion (Bool.of_not_eq_false ends)] at begins
            cases begins
          rw [if_pos begins, if_pos begins, FoldScan.beginRegion, List.map_cons, openSoFar]
          refine ⟨rfl, fun fold => ?_⟩
          rw [foldsSoFar, continues]
          simp
        · have ends : last.focus.endsRegion :=
            (all last.focus (List.mem_append_right _ List.mem_cons_self)).resolve_left begins
          rw [if_neg begins, if_neg begins, FoldScan.endRegion, openSoFar]
          cases latest : RegionDirectives.unclosed (directives config places) with
          | nil =>
              rw [latest] at openSoFar
              refine ⟨openSoFar, fun fold => ?_⟩
              simpa using foldsSoFar fold
          | cons opening opened =>
              refine ⟨rfl, fun fold => ?_⟩
              simp [foldsSoFar, ends, or_assoc]
      · rw [if_neg isDirective, if_neg isDirective, List.append_nil, rowFolds_concat]
        refine ⟨openSoFar, fun fold => ?_⟩
        rw [FoldScan.add, List.mem_append, foldsSoFar, List.mem_append (s := tree.rowFolds places)]
        exact or_right_comm

/-! ## The folds of a tree -/

/-- The folds of a tree and its comments in the order in which they are found. -/
def foundFolds (tree : SyntaxTree) (comments : List Comment) (config : AnnotationConfig) :
    List Fold :=
  (tree.scanned config (tree.foldPlaces config)).folds ++
    if config.foldComments then commentFolds comments config.collapseDocComments else []

theorem foldings_eq (tree : SyntaxTree) (comments : List Comment) (config : AnnotationConfig) :
    tree.foldings comments config .live =
      .ok (normalizeFolds (tree.foundFolds comments config)) := by
  rw [foundFolds, ← walk_visitFolds]
  rfl

variable {comments : List Comment}

/-- A fold that spans lines is found exactly when it is produced. -/
theorem mem_foundFolds_iff (multiLine : fold.region.isMultiLine) :
    fold ∈ tree.foundFolds comments config ↔ tree.Produces comments config fold := by
  rw [foundFolds, List.mem_append, (scanned_places _).2, rowFolds, List.mem_flatMap]
  constructor
  · rintro ((⟨place, found, ofRow⟩ | ⟨opening, closing, paired, rfl⟩) | ofComments)
    · rcases List.mem_append.mp ofRow with ofScope | ofBraces
      · obtain ⟨scope, isScope, ofUsings⟩ := mem_scopeFolds_iff.mp ofScope
        obtain ⟨part, isPart, first, rest, last, run, isLast, rfl⟩ := mem_usingFolds_iff.mp ofUsings
        exact .imports found isScope isPart run isLast
      · obtain ⟨kind, region, hasKind, between, _, rfl⟩ :=
          braceFold?_eq_some_iff.mp (Option.mem_toList.mp ofBraces)
        exact .braces found hasKind between
    · exact .userRegion paired
    · split at ofComments
      · next foldsComments => exact .comment foldsComments ofComments
      · cases ofComments
  · intro produced
    cases produced with
    | @braces place kind region found hasKind between =>
        have differ : region.start.line ≠ region.stop.line :=
          Nat.ne_of_lt (of_decide_eq_true multiLine)
        refine .inl (.inl ⟨place, found, List.mem_append_right _ (Option.mem_toList.mpr ?_)⟩)
        exact braceFold?_eq_some_iff.mpr ⟨kind, region, hasKind, between, differ, rfl⟩
    | @imports place scope part first last rest found isScope isPart run isLast =>
        refine .inl (.inl ⟨place, found, List.mem_append_left _ (mem_scopeFolds_iff.mpr ?_)⟩)
        exact ⟨scope, isScope, mem_usingFolds_iff.mpr
          ⟨part, isPart, first, rest, last, run, isLast, rfl⟩⟩
    | @userRegion opening closing paired => exact .inl (.inr ⟨opening, closing, paired, rfl⟩)
    | comment foldsComments found => exact .inr (by rwa [if_pos foldsComments])

/-- The folds that are kept span lines and are produced. -/
theorem produces_of_mem_normalizeFolds
    (normal : fold ∈ normalizeFolds (tree.foundFolds comments config)) :
    fold.region.isMultiLine ∧ tree.Produces comments config fold := by
  obtain ⟨found, multiLine⟩ := mem_of_mem_normalizeFolds normal
  exact ⟨multiLine, (mem_foundFolds_iff multiLine).mp found⟩

/-- The folds of a tree and its comments are in the strict order of their regions.  Their regions
are those of the produced folds that span lines, and each of them is one that is produced. -/
theorem foldings_are_produced (tree : SyntaxTree) (comments : List Comment)
    (config : AnnotationConfig) :
    ∃ folds, tree.foldings comments config .live = .ok folds ∧
      folds.Pairwise (fun first second => first.region.IsBefore second.region) ∧
      (∀ region, (∃ fold ∈ folds, fold.region = region) ↔
        region.isMultiLine ∧ ∃ fold, tree.Produces comments config fold ∧ fold.region = region) ∧
      ∀ fold ∈ folds, tree.Produces comments config fold := by
  refine ⟨_, foldings_eq tree comments config, normalizeFolds_pairwise _,
    fun region => ⟨?_, ?_⟩, fun fold normal => (produces_of_mem_normalizeFolds normal).2⟩
  · rintro ⟨fold, normal, rfl⟩
    obtain ⟨multiLine, produced⟩ := produces_of_mem_normalizeFolds normal
    exact ⟨multiLine, fold, produced, rfl⟩
  · rintro ⟨multiLine, fold, produced, rfl⟩
    exact exists_mem_normalizeFolds ((mem_foundFolds_iff multiLine).mpr produced) multiLine

end SyntaxTree

end SourceAnnotations
