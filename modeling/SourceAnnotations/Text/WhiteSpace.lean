import SourceAnnotations.Text.Basic

/-!
# White space

The characters with the Unicode property White_Space, and trimming by them. The property has
twenty-five members, in ten ranges.
-/

namespace SourceAnnotations

/-- The code points with the property White_Space, as ranges with both ends included. -/
def whiteSpaceRanges : List (Nat × Nat) :=
  [(0x09, 0x0D), (0x20, 0x20), (0x85, 0x85), (0xA0, 0xA0), (0x1680, 0x1680),
    (0x2000, 0x200A), (0x2028, 0x2029), (0x202F, 0x202F), (0x205F, 0x205F), (0x3000, 0x3000)]

def isWhiteSpace (c : Char) : Bool :=
  whiteSpaceRanges.any fun (first, last) => first ≤ c.toNat && c.toNat ≤ last

namespace Text

def trimStart (text : Text) : Text :=
  text.dropWhile isWhiteSpace

def trimEnd (text : Text) : Text :=
  dropEndWhile isWhiteSpace text

def trim (text : Text) : Text :=
  trimEnd (trimStart text)

end Text

end SourceAnnotations
