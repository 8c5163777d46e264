/-!
# Blank characters

The characters with the Unicode property `White_Space`, and the removal of those at both ends
of a text.

Specification: `SPEC_FULL.md` §4.1 (numeric coercion of texts).
-/

namespace StoryEngine.Text

/-- The ranges of code points with the property `White_Space`, in ascending order. -/
def blankRanges : List (Nat × Nat) :=
  [(0x9, 0xD), (0x20, 0x20), (0x85, 0x85), (0xA0, 0xA0), (0x1680, 0x1680), (0x2000, 0x200A),
    (0x2028, 0x2029), (0x202F, 0x202F), (0x205F, 0x205F), (0x3000, 0x3000)]

/-- A character is blank when its code point lies in one of the ranges. -/
def isBlank (c : Char) : Bool :=
  blankRanges.any fun (low, high) ↦ low ≤ c.toNat && c.toNat ≤ high

/-- The text without the blank characters at its two ends. -/
def trim (text : List Char) : List Char :=
  ((text.dropWhile isBlank).reverse.dropWhile isBlank).reverse

end StoryEngine.Text
