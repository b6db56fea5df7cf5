import Quotation.Number.Nearest

/-!
# Decimals

A decimal is a whole number of digits times a power of ten. It is read as the nearest double, and a
finite double has an exact decimal, since a power of two divides a power of ten.
-/

namespace Quotation.Number

/-- The number `digits * 10 ^ exponent`. -/
structure Decimal where
  digits : Nat
  exponent : Int
  deriving DecidableEq

def digitCount (n : Nat) : Nat := (Nat.toDigits 10 n).length

/-- The double nearest to a decimal. The two bounds leave only powers of ten worth computing: from
`10 ^ 400` every decimal is infinite, and below `10 ^ -400` every decimal is zero. -/
def Decimal.toFloat (negative : Bool) (d : Decimal) : Float :=
  let size := digitCount d.digits + d.exponent
  if d.digits = 0 ∨ size < -400 then Dyadic.toFloat ⟨negative, 0, 0⟩
  else if 400 < size then infinity negative
  else nearest negative (d.digits * Nat.pow 10 d.exponent.toNat) (Nat.pow 10 (-d.exponent).toNat)

/-- The decimal that is exactly as large as a double's parts say. -/
def Dyadic.toDecimal (d : Dyadic) : Decimal :=
  if 0 ≤ d.exponent then
    ⟨d.mantissa * Nat.pow 2 d.exponent.toNat, 0⟩
  else
    ⟨d.mantissa * Nat.pow 5 (-d.exponent).toNat, d.exponent⟩

end Quotation.Number
