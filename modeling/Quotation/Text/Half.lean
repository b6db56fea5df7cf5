/-!
# Halves of characters

In some encodings a character beyond the first 65536 is written as two codes, and text from outside
may hold one of the two alone. Such a half is no character. A character for private use stands in
for it, from a row of them that is not used for anything else.
-/

namespace Quotation.Text

def firstHalf : Nat := 0xD800

def halfCount : Nat := 0x800

/-- The code of the character that stands in for the first half. -/
def firstStandIn : Nat := 0xFA800

def isHalfCode (code : Nat) : Bool := firstHalf ≤ code && code < firstHalf + halfCount

/-- The character that stands in for the half with a code. -/
def ofHalfCode (code : Nat) : Char := Char.ofNat (code - firstHalf + firstStandIn)

def halfCode? (c : Char) : Option Nat :=
  if firstStandIn ≤ c.toNat ∧ c.toNat < firstStandIn + halfCount then
    some (c.toNat - firstStandIn + firstHalf)
  else
    none

end Quotation.Text
