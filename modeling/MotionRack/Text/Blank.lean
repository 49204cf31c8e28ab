/-!
# Blanks

Blanks, in the sense of the Unicode property White_Space, and what is left of a text without them.
-/
namespace MotionRack.Blank

/-- The ranges of blank code points, both ends included, in ascending order. -/
def ranges : List (Nat × Nat) :=
  [(0x09, 0x0D), (0x20, 0x20), (0x85, 0x85), (0xA0, 0xA0), (0x1680, 0x1680), (0x2000, 0x200A),
   (0x2028, 0x2029), (0x202F, 0x202F), (0x205F, 0x205F), (0x3000, 0x3000)]

/-- Whether a character is blank. -/
def holds (c : Char) : Bool := ranges.any fun (low, high) => low ≤ c.toNat && c.toNat ≤ high

/-- The characters of a text that are not blank, wherever the blanks stand. -/
def strip (text : String) : List Char := text.toList.filter (!holds ·)

/-- The characters of a text without the blanks at its two ends. -/
def trim (text : String) : List Char :=
  ((text.toList.dropWhile holds).reverse.dropWhile holds).reverse

end MotionRack.Blank
