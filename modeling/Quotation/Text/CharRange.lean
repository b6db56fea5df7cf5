/-!
# Ranges of characters

A class of characters given by the runs of code points that it consists of.
-/

namespace Quotation.Text

/-- The characters from code point `first` to code point `last`. -/
structure CharRange where
  first : Nat
  last : Nat

def CharRange.contains (range : CharRange) (c : Char) : Bool :=
  range.first ≤ c.toNat && c.toNat ≤ range.last

def inRanges (ranges : List CharRange) (c : Char) : Bool := ranges.any (·.contains c)

end Quotation.Text
