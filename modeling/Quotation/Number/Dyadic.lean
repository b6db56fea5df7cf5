/-!
# Doubles as whole numbers times powers of two

A finite double is a sign, a whole mantissa and a power of two. Everything exact that the library
does with a double, such as writing its digits, goes through these three parts.
-/

namespace Quotation.Number

open Float.Model

/-- The number `mantissa * 2 ^ exponent`, with a sign that zero has as well. -/
structure Dyadic where
  negative : Bool
  mantissa : Nat
  exponent : Int
  deriving DecidableEq

def isNegative : UnpackedFloat.Sign → Bool
  | .negative => true
  | .positive => false

def signOf : Bool → UnpackedFloat.Sign
  | true => .negative
  | false => .positive

/-- The parts of a double; infinities and not-a-number have none. -/
def dyadic? (x : Float) : Option Dyadic :=
  match x.toModel.unpack with
  | .finite sign mantissa exponent _ => some ⟨isNegative sign, mantissa, exponent⟩
  | .zero sign => some ⟨isNegative sign, 0, 0⟩
  | .infinity _ => none
  | .notANumber => none

/-- The double with these parts. The mantissa has 53 bits, or fewer at the lowest exponent, `-1074`;
at an exponent above `971` the double is infinite. -/
def Dyadic.toFloat (d : Dyadic) : Float :=
  if h : 0 < d.mantissa then
    .ofModel (.pack (.finite (signOf d.negative) d.mantissa d.exponent h))
  else
    .ofModel (.pack (.zero (signOf d.negative)))

def infinity (negative : Bool) : Float := .ofModel (.pack (.infinity (signOf negative)))

def notANumber : Float := .ofModel (.pack .notANumber)

def wholeNumber? (x : Float) : Option Int :=
  match dyadic? x with
  | none => none
  | some d =>
    let scale := Nat.pow 2 (-d.exponent).toNat
    if d.mantissa % scale = 0 then
      let size : Nat := d.mantissa / scale * Nat.pow 2 d.exponent.toNat
      some (if d.negative then -size else size)
    else
      none

def isBelow (x : Float) (n : Int) : Bool :=
  match dyadic? x with
  | none => x < 0
  | some d =>
    let size : Int := if d.negative then -d.mantissa else d.mantissa
    size * Nat.pow 2 d.exponent.toNat < n * Nat.pow 2 (-d.exponent).toNat

end Quotation.Number
