import Quotation.Number.Decimal
import Quotation.Text.Blank
import Quotation.Text.Digit

/-!
# Numerals

How numbers are written: an optional sign, digits with at most one point among or around them, and
an optional exponent. The digits may be of any script. A numeral is read either from the front of a
text, leaving the rest, or as the whole of a text.
-/

namespace Quotation.Number

open Text

/-! ## From the front of a text -/

/-- The digits of a numeral: those before the point and, if a point is written, those after it. -/
structure Mantissa where
  whole : List Char
  fraction : Option (List Char)
  deriving DecidableEq

def Mantissa.chars (m : Mantissa) : List Char :=
  m.whole ++ (m.fraction.map ('.' :: ·)).getD []

def Mantissa.text (m : Mantissa) : String := String.ofList m.chars

/-- The mantissa without its point: all digits, and how many of them stand after the point. -/
def Mantissa.toDecimal (m : Mantissa) : Decimal :=
  let fraction := m.fraction.getD []
  ⟨digitsValue (m.whole ++ fraction), -fraction.length⟩

def scanDigits (cs : List Char) : List Char × List Char :=
  (cs.takeWhile isDigit, cs.dropWhile isDigit)

/-- The longest mantissa at the front of a text. At least one digit is needed, on either side of
the point. -/
def Mantissa.scan? (cs : List Char) : Option (Mantissa × List Char) :=
  let whole := (scanDigits cs).1
  match (scanDigits cs).2 with
  | '.' :: afterPoint =>
    let fraction := (scanDigits afterPoint).1
    if whole.isEmpty && fraction.isEmpty then none
    else some (⟨whole, some fraction⟩, (scanDigits afterPoint).2)
  | rest => if whole.isEmpty then none else some (⟨whole, none⟩, rest)

def scanSign : List Char → Bool × List Char
  | '-' :: rest => (true, rest)
  | '+' :: rest => (false, rest)
  | rest => (false, rest)

/-- The exponent at the front of a text. A letter without digits after it is not one. -/
def scanExponent (cs : List Char) : Int × List Char :=
  match cs with
  | c :: afterLetter =>
    if c = 'e' ∨ c = 'E' then
      let (negative, afterSign) := scanSign afterLetter
      let (digits, rest) := scanDigits afterSign
      if digits.isEmpty then (0, cs)
      else (if negative then -(digitsValue digits : Int) else digitsValue digits, rest)
    else (0, cs)
  | [] => (0, cs)

structure Numeral where
  negative : Bool
  mantissa : Mantissa
  exponent : Int
  deriving DecidableEq

def Numeral.scan? (cs : List Char) : Option (Numeral × List Char) :=
  let (negative, afterSign) := scanSign cs
  match Mantissa.scan? afterSign with
  | none => none
  | some (mantissa, afterMantissa) =>
    let (exponent, rest) := scanExponent afterMantissa
    some (⟨negative, mantissa, exponent⟩, rest)

def Numeral.toDecimal (n : Numeral) : Decimal :=
  let mantissa := n.mantissa.toDecimal
  ⟨mantissa.digits, mantissa.exponent + n.exponent⟩

def Numeral.toFloat (n : Numeral) : Float := n.toDecimal.toFloat n.negative

def Mantissa.toFloat (m : Mantissa) : Float := m.toDecimal.toFloat false

/-! ## The whole of a text -/

/-- Takes out the underscores of a text. Each has to stand between two digits; the flag says whether
a digit comes before. -/
def joinDigitGroups (afterDigit : Bool) : List Char → Option (List Char)
  | [] => some []
  | '_' :: rest =>
    if afterDigit && (rest.head?.map isDigit).getD false then joinDigitGroups false rest else none
  | c :: rest => (joinDigitGroups (isDigit c) rest).map (c :: ·)

def namedNumber? (negative : Bool) (cs : List Char) : Option Float :=
  let name := String.ofList (cs.map Char.toLower)
  if name = "inf" ∨ name = "infinity" then some (infinity negative)
  else if name = "nan" then some notANumber
  else none

/-- A text that is nothing but a number: a numeral or the name of a number, with a sign or without. -/
def readSigned? (cs : List Char) : Option Float :=
  match Numeral.scan? cs with
  | some (numeral, []) => some numeral.toFloat
  | some (_, _ :: _) => none
  | none =>
    let (negative, name) := scanSign cs
    namedNumber? negative name

/-- The number that a whole text stands for. Spaces around it and underscores inside a row of digits
do not count. -/
def readNumber? (s : String) : Option Float :=
  (joinDigitGroups false (trim isSpace s.toList)).bind readSigned?

/-- The whole number that a whole text stands for, written with digits only. -/
def readInt? (s : String) : Option Int :=
  match joinDigitGroups false (trim isSpace s.toList) with
  | none => none
  | some cs =>
    let (negative, digits) := scanSign cs
    if digits.isEmpty || !digits.all isDigit then none
    else some (if negative then -(digitsValue digits : Int) else digitsValue digits)

end Quotation.Number
