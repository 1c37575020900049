import SourceAnnotations.Tree.Node

/-!
# Rows of a tree

The rows of a tree with their depths, in the order of the text, are what the tree can be made from
again.  A row lies below another when it comes in the order of the text of the other's tree.
-/

namespace SourceAnnotations

namespace Node

/-- What holds of a node when it holds of all its children holds of every node. -/
@[induction_eliminator]
theorem induction {motive : Node → Prop}
    (mk : ∀ row children, (∀ child ∈ children, motive child) → motive (.mk row children)) :
    (node : Node) → motive node
  | .mk row children => mk row children fun child _ => induction mk child

/-! ## Rows in the order of the text -/

theorem mem_preorderOfAll {node : Node} {nodes : List Node} :
    node ∈ preorderOfAll nodes ↔ ∃ head ∈ nodes, node ∈ head.preorder := by
  induction nodes with
  | nil => simp [preorderOfAll]
  | cons head tail inductionHypothesis =>
      simp only [preorderOfAll, List.mem_append, inductionHypothesis, List.mem_cons,
        exists_eq_or_imp]

theorem mem_preorder_iff {node root : Node} :
    node ∈ root.preorder ↔ node = root ∨ ∃ child ∈ root.children, node ∈ child.preorder := by
  obtain ⟨row, children⟩ := root
  rw [preorder, List.mem_cons, mem_preorderOfAll, Node.children]

theorem mem_preorder_self (node : Node) : node ∈ node.preorder :=
  mem_preorder_iff.mpr (.inl rfl)

theorem mem_preorder_of_child {node child parent : Node} (isChild : child ∈ parent.children)
    (below : node ∈ child.preorder) : node ∈ parent.preorder :=
  mem_preorder_iff.mpr (.inr ⟨child, isChild, below⟩)

theorem mem_preorder_trans {low middle top : Node} (above : middle ∈ top.preorder)
    (below : low ∈ middle.preorder) : low ∈ top.preorder := by
  induction top with
  | mk row children inductionHypothesis =>
      rcases mem_preorder_iff.mp above with rfl | ⟨child, isChild, within⟩
      · exact below
      · exact mem_preorder_of_child isChild (inductionHypothesis child isChild within)

theorem length_preorderOfAll {nodes : List Node}
    (each : ∀ node ∈ nodes, node.preorder.length = node.size) :
    (preorderOfAll nodes).length = sizeOfAll nodes := by
  induction nodes with
  | nil => rfl
  | cons head tail inductionHypothesis =>
      obtain ⟨here, each⟩ := List.forall_mem_cons.mp each
      rw [preorderOfAll, sizeOfAll, List.length_append, here, inductionHypothesis each]

theorem length_preorder (node : Node) : node.preorder.length = node.size := by
  induction node with
  | mk row children inductionHypothesis =>
      rw [preorder, size, List.length_cons, length_preorderOfAll inductionHypothesis]

/-! ## Trees and their rows -/

mutual

/-- The rows of a tree with their depths, in the order of the text. -/
def rows (depth : Nat) : Node → List (Nat × Row)
  | mk row children => (depth, row) :: rowsOfAll (depth + 1) children

def rowsOfAll (depth : Nat) : List Node → List (Nat × Row)
  | [] => []
  | head :: tail => head.rows depth ++ rowsOfAll depth tail

end

/-- The trees of rows are found again when what follows the rows is not deeper than they are. -/
theorem forest_rowsOfAll {depth : Nat} {nodes : List Node} {rest : List (Nat × Row)}
    (each : ∀ node ∈ nodes, ∀ depth rest, (∀ tree ∈ (forest rest).head?, tree.1 ≤ depth) →
      forest (node.rows depth ++ rest) = (depth, node) :: forest rest)
    (shallow : ∀ tree ∈ (forest rest).head?, tree.1 ≤ depth) :
    forest (rowsOfAll depth nodes ++ rest) = nodes.map (depth, ·) ++ forest rest := by
  induction nodes with
  | nil => rfl
  | cons head tail inductionHypothesis =>
      obtain ⟨here, each⟩ := List.forall_mem_cons.mp each
      have behind := inductionHypothesis each
      rw [rowsOfAll, List.append_assoc, here, behind]
      · rfl
      · rw [behind]
        cases tail with
        | nil => exact shallow
        | cons next others =>
            intro tree isHead
            cases isHead
            exact Nat.le_refl depth

theorem forest_rows (node : Node) (depth : Nat) (rest : List (Nat × Row))
    (shallow : ∀ tree ∈ (forest rest).head?, tree.1 ≤ depth) :
    forest (node.rows depth ++ rest) = (depth, node) :: forest rest := by
  induction node generalizing depth rest with
  | mk row children inductionHypothesis =>
      have below :
          forest (rowsOfAll (depth + 1) children ++ rest) =
            children.map (depth + 1, ·) ++ forest rest :=
        forest_rowsOfAll inductionHypothesis fun tree isHead =>
          Nat.le_succ_of_le (shallow tree isHead)
      -- The trees one level deeper are those of the children, and then come shallower ones.
      have others :
          (forest rest).takeWhile (fun tree => decide (tree.1 = depth + 1)) = [] ∧
            (forest rest).dropWhile (fun tree => decide (tree.1 = depth + 1)) = forest rest := by
        cases found : forest rest with
        | nil => exact ⟨rfl, rfl⟩
        | cons tree trees =>
            rw [found] at shallow
            have above : tree.1 ≤ depth := shallow tree rfl
            have different : ¬ tree.1 = depth + 1 := by omega
            simp [different]
      have children_eq : (children.map (depth + 1, ·)).map Prod.snd = children := by
        rw [List.map_map]
        exact List.map_id children
      have deeper : ∀ tree ∈ children.map (depth + 1, ·), decide (tree.1 = depth + 1) := by
        simp
      rw [rows, List.cons_append, forest, below]
      simp only [List.takeWhile_append_of_pos deeper, List.dropWhile_append_of_pos deeper, others,
        List.append_nil, children_eq]

theorem ofRows?_rows (root : Node) : ofRows? (root.rows 0) = some root := by
  have found := forest_rows root 0 [] (fun _ isHead => nomatch isHead)
  rw [List.append_nil] at found
  rw [ofRows?, found]
  rfl

end Node

end SourceAnnotations
