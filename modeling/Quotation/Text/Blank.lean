import Quotation.Text.CharRange

/-!
# Blank characters

The characters that separate words in form values, formulas and settings: blanks of every script,
line ends, and the four separators that old terminals used. Numerals are stricter: around a numeral
the four separators do not count.
-/

namespace Quotation.Text

/-- The runs of blank characters, the four separators left out. -/
def spaceRanges : List CharRange :=
  [⟨0x09, 0x0D⟩, ⟨0x20, 0x20⟩, ⟨0x85, 0x85⟩, ⟨0xA0, 0xA0⟩, ⟨0x1680, 0x1680⟩, ⟨0x2000, 0x200A⟩,
    ⟨0x2028, 0x2029⟩, ⟨0x202F, 0x202F⟩, ⟨0x205F, 0x205F⟩, ⟨0x3000, 0x3000⟩]

/-- The file, group, record and unit separators. -/
def separatorRange : CharRange := ⟨0x1C, 0x1F⟩

def isSpace (c : Char) : Bool := inRanges spaceRanges c

def isBlank (c : Char) : Bool := isSpace c || separatorRange.contains c

def trim (drops : Char → Bool) (cs : List Char) : List Char :=
  ((cs.dropWhile drops).reverse.dropWhile drops).reverse

def trimEnd (drops : Char → Bool) (cs : List Char) : List Char :=
  (cs.reverse.dropWhile drops).reverse

end Quotation.Text
