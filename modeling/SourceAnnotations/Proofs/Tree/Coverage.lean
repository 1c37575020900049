import SourceAnnotations.Text.WhiteSpace
import SourceAnnotations.Tree.Node

/-!
# Bytes and the rows over them

Every byte of a text belongs to a character, and to the rows whose ranges it lies in.  What a byte
that belongs to no leaf is part of says how faithful a tree is to its text.
-/

namespace SourceAnnotations

namespace Text

/-- The character that a byte belongs to. -/
def charOver? (text : Text) (byte : Nat) : Option Char :=
  text[text.charsBefore byte]?

def isSpaceByte (text : Text) (byte : Nat) : Bool :=
  (text.charOver? byte).any isWhiteSpace

/-- Whether a byte belongs to a byte order mark at the start of the text. -/
def isMarkByte (text : Text) (byte : Nat) : Bool :=
  text.charsBefore byte = 0 && text.head? = some '\uFEFF'

end Text

namespace Node

/-- A byte that belongs to a row. -/
def Covers (node : Node) (byte : Nat) : Prop :=
  node.row.startByte ≤ byte ∧ byte < node.row.endByte

instance (node : Node) (byte : Nat) : Decidable (node.Covers byte) :=
  inferInstanceAs (Decidable (_ ∧ _))

/-- No byte belongs to both rows. -/
def IsApartFrom (node other : Node) : Prop :=
  ∀ byte, node.Covers byte → ¬ other.Covers byte

theorem IsApartFrom.symm {node other : Node} (apart : node.IsApartFrom other) :
    other.IsApartFrom node :=
  fun byte covers covered => apart byte covered covers

end Node

end SourceAnnotations
