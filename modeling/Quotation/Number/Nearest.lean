import Quotation.Number.Dyadic

/-!
# The nearest double

Rounding a fraction to the nearest double, ties to the even mantissa. Whole numbers, decimal
numerals and quotients are all read by way of this one rounding.
-/

namespace Quotation.Number

/-- The whole number nearest to a fraction; a half goes to the even neighbour. -/
def halfEven (numerator denominator : Nat) : Nat :=
  let quotient := numerator / denominator
  let twice := 2 * (numerator % denominator)
  if twice < denominator ∨ (twice = denominator ∧ quotient % 2 = 0) then quotient else quotient + 1

/-- The exponent of the last mantissa bit of a double as large as the fraction. -/
def unitExponent (numerator denominator : Nat) : Int :=
  let guess : Int := (numerator.log2 : Int) - (denominator.log2 : Int)
  let atLeast := denominator * Nat.pow 2 guess.toNat ≤ numerator * Nat.pow 2 (-guess).toNat
  let floorLog := if atLeast then guess else guess - 1
  max (floorLog - 52) (-1074)

/-- The double nearest to a fraction: infinite when the fraction rounds past the largest double. -/
def nearest (negative : Bool) (numerator denominator : Nat) : Float :=
  let exponent := unitExponent numerator denominator
  let mantissa :=
    halfEven (numerator * Nat.pow 2 (-exponent).toNat)
      (denominator * Nat.pow 2 exponent.toNat)
  if mantissa = Nat.pow 2 53 then
    Dyadic.toFloat ⟨negative, Nat.pow 2 52, exponent + 1⟩
  else
    Dyadic.toFloat ⟨negative, mantissa, exponent⟩

def finite? (x : Float) : Option Float := if x.isFinite then some x else none

def ofInt (n : Int) : Option Float := finite? (nearest (n < 0) n.natAbs 1)

def ofQuotient (n : Int) (divisor : Nat) : Option Float :=
  finite? (nearest (n < 0) n.natAbs divisor)

end Quotation.Number
