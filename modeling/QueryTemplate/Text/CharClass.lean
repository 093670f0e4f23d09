import QueryTemplate.Text.Alphabetic
import QueryTemplate.Text.Numeric

/-!
# Character classes

The four classes of characters on which the two lexers and the sort list reader rest. Each is
decided on ASCII by a comparison and beyond it by a table of ranges.
-/

namespace QueryTemplate.Text

/-- Whether `n` lies in one of the closed ranges. -/
def inRanges (ranges : List (Nat × Nat)) (n : Nat) : Bool :=
  ranges.any fun r => r.1 ≤ n && n ≤ r.2

/-- The ranges of the property `White_Space` above U+007F. -/
def blankRanges : List (Nat × Nat) :=
  [(0x85, 0x85), (0xa0, 0xa0), (0x1680, 0x1680), (0x2000, 0x200a), (0x2028, 0x2029),
   (0x202f, 0x202f), (0x205f, 0x205f), (0x3000, 0x3000)]

/-- A blank is a character with the Unicode property `White_Space`. -/
def isBlank (c : Char) : Bool :=
  c = ' ' || (9 ≤ c.toNat && c.toNat ≤ 13) || inRanges blankRanges c.toNat

/-- A letter is a character with the Unicode property `Alphabetic`. -/
def isAlphabetic (c : Char) : Bool :=
  c.isAlpha || (128 ≤ c.toNat && inRanges alphabeticRanges c.toNat)

/-- A numeral is a character of general category `Nd`, `Nl` or `No`. -/
def isNumeric (c : Char) : Bool :=
  c.isDigit || (128 ≤ c.toNat && inRanges numericRanges c.toNat)

/-- Letters and numerals together. -/
def isAlphanumeric (c : Char) : Bool :=
  isAlphabetic c || isNumeric c

end QueryTemplate.Text
