import Quotation.Number.Decimal

/-!
# The fewest digits

The shortest decimal that is read back as a given double, and of the decimals with as few digits the
one nearest to it. For each count of digits only the two neighbours of the double on the grid of
decimals with that many digits can qualify. Seventeen digits are always enough; the exact decimal
stands behind them, so that what is written is read back in every case.
-/

namespace Quotation.Number

/-- The decimals with `count` digits on either side of an exact decimal, the nearer one first. Of two
equally near ones the one with an even last digit is first. -/
def neighbours (exact : Decimal) (count : Nat) : List Decimal :=
  let dropped := digitCount exact.digits - count
  let unit := Nat.pow 10 dropped
  let low := exact.digits / unit
  let twice := 2 * (exact.digits % unit)
  let exponent := exact.exponent + dropped
  if twice < unit ∨ (twice = unit ∧ low % 2 = 0) then
    [⟨low, exponent⟩, ⟨low + 1, exponent⟩]
  else
    [⟨low + 1, exponent⟩, ⟨low, exponent⟩]

/-- The decimal that a finite double is written with. -/
def shortest (x : Float) (parts : Dyadic) : Decimal :=
  let exact := parts.toDecimal
  let readsBack (d : Decimal) : Bool := d.toFloat parts.negative = x
  ((List.range' 1 17).findSome? fun count => (neighbours exact count).find? readsBack).getD exact

end Quotation.Number
