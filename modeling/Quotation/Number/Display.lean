import Quotation.Number.Shortest
import Quotation.Text.Blank

/-!
# How numbers are shown

Four forms of a double. The full form has the fewest digits that are read back as the same double.
The plain form is the full form with whole numbers below `10 ^ 21` written without a point; it is what
a form stores. Amounts have a fixed number of places, and limits at most six significant digits.
Rounding is always done on the exact value, and a half goes to the even neighbour.
-/

namespace Quotation.Number

/-! ## Digits and where the point stands -/

/-- Digits without zeros at the end, and the place of the point: the number is
`0.digits * 10 ^ point`. -/
structure Significand where
  digits : List Char
  point : Int

def Decimal.significand (d : Decimal) : Significand :=
  let digits := Nat.toDigits 10 d.digits
  ⟨Text.trimEnd (· == '0') digits, digits.length + d.exponent⟩

def Significand.positional (s : Significand) : List Char × List Char :=
  if s.point ≤ 0 then
    (['0'], List.replicate (-s.point).toNat '0' ++ s.digits)
  else
    let point := s.point.toNat
    (s.digits.take point ++ List.replicate (point - s.digits.length) '0', s.digits.drop point)

/-- One digit before the point, then the power of ten with a sign and at least two digits. -/
def Significand.scientific (s : Significand) : List Char :=
  let power := s.point - 1
  let fraction := if s.digits.length ≤ 1 then [] else '.' :: s.digits.drop 1
  let powerDigits := Nat.toDigits 10 power.natAbs
  s.digits.take 1 ++ fraction ++ ['e', if power < 0 then '-' else '+'] ++
    List.replicate (2 - powerDigits.length) '0' ++ powerDigits

def signed (negative : Bool) (cs : List Char) : String :=
  String.ofList (if negative then '-' :: cs else cs)

def unboundedText (x : Float) : String :=
  if x.isNaN then "nan" else if x < 0 then "-inf" else "inf"

/-! ## Full form -/

/-- Numbers from `10 ^ -4` to below `10 ^ 16` are written out, with at least one digit after the
point; others have a power of ten. -/
def Significand.fullText (s : Significand) : List Char :=
  if -4 < s.point ∧ s.point ≤ 16 then
    let (whole, fraction) := s.positional
    whole ++ '.' :: (if fraction.isEmpty then ['0'] else fraction)
  else
    s.scientific

def fullText (x : Float) : String :=
  match dyadic? x with
  | none => unboundedText x
  | some parts =>
    signed parts.negative <|
      if parts.mantissa = 0 then ['0', '.', '0'] else (shortest x parts).significand.fullText

/-! ## Plain form -/

/-- Whole numbers from here on are written in full form. -/
def plainLimit : Nat := Nat.pow 10 21

/-- The plain form of a double. A number that is not finite is shown as zero. -/
def plainText (x : Float) : String :=
  if x.isFinite then
    match wholeNumber? x with
    | some n => if n.natAbs < plainLimit then toString n else fullText x
    | none => fullText x
  else
    "0"

/-! ## Fixed places -/

/-- The digits of a number in groups of three with commas between them. -/
def groupThrees (digits : List Char) : List Char :=
  let groups := digits.zipIdx.map fun (c, i) =>
    if i ≠ 0 ∧ (digits.length - i) % 3 = 0 then [',', c] else [c]
  groups.flatten

def Decimal.rounded (d : Decimal) (places : Nat) : List Char × List Char :=
  let scaled :=
    halfEven (d.digits * Nat.pow 10 d.exponent.toNat * Nat.pow 10 places)
      (Nat.pow 10 (-d.exponent).toNat)
  let fraction := Nat.toDigits 10 (scaled % Nat.pow 10 places)
  (Nat.toDigits 10 (scaled / Nat.pow 10 places),
    if places = 0 then [] else List.replicate (places - fraction.length) '0' ++ fraction)

def fixedText (places : Nat) (x : Float) : String :=
  match dyadic? x with
  | none => unboundedText x
  | some parts =>
    let (whole, fraction) := parts.toDecimal.rounded places
    signed parts.negative (whole ++ if fraction.isEmpty then [] else '.' :: fraction)

/-- A count of units: commas between the thousands and at most three places. -/
def unitsText (x : Float) : String :=
  match dyadic? x with
  | none => plainText x
  | some parts =>
    match wholeNumber? x with
    | some n => signed (n < 0) (groupThrees (Nat.toDigits 10 n.natAbs))
    | none =>
      let (whole, fraction) := parts.toDecimal.rounded 3
      let fraction := Text.trimEnd (· == '0') fraction
      signed parts.negative
        (groupThrees whole ++ if fraction.isEmpty then [] else '.' :: fraction)

/-! ## Six significant digits -/

def Decimal.roundDigits (d : Decimal) (count : Nat) : Decimal :=
  let dropped := digitCount d.digits - count
  ⟨halfEven d.digits (Nat.pow 10 dropped), d.exponent + dropped⟩

/-- A double with at most six significant digits. Numbers from `10 ^ -4` to below `10 ^ 6` are
written out. -/
def limitText (x : Float) : String :=
  match dyadic? x with
  | none => unboundedText x
  | some parts =>
    signed parts.negative <|
      if parts.mantissa = 0 then ['0']
      else
        let s := (parts.toDecimal.roundDigits 6).significand
        if -4 < s.point ∧ s.point ≤ 6 then
          let (whole, fraction) := s.positional
          whole ++ if fraction.isEmpty then [] else '.' :: fraction
        else
          s.scientific

end Quotation.Number
