import Quotation.Text.Uppercase
import Quotation.Value

/-!
# Currencies

The currencies that a quote can be shown in, and how an amount of money is shown.
-/

namespace Quotation

structure Currency where
  symbol : String
  code : String
  name : String
  deriving DecidableEq

namespace Currency

def usd : Currency := ⟨"$", "USD", "US Dollar"⟩

def idr : Currency := ⟨"Rp", "IDR", "Indonesian Rupiah"⟩

/-- The currency with a code, in small or capital letters. A code that is not given or not known
means US dollars. -/
def ofCode (code : Value) : Currency :=
  let code := Text.uppercase (code.orElse usd.code).shown
  if code = idr.code then idr else usd

structure Places where
  usual : Nat := 2
  /-- For amounts above zero and below `0.01`, which the usual places would show as nothing. -/
  small : Nat := 6

def isSmall (amount : Float) : Bool := 0 < amount && amount < 0.01

def amountText (currency : Currency) (amount : Float) (places : Places := {}) : String :=
  currency.symbol ++ Number.fixedText (if isSmall amount then places.small else places.usual) amount

end Currency

/-! ## Places as they are asked for -/

inductive AmountFault where
  | amount (cause : ValueFault)
  /-- The number of places does not start with a digit. -/
  | noPlaces
  /-- The number of places for an amount of some kind goes on after its digits. -/
  | badPlaces (written kind : String)
  | tooManyDigits
  | tooManyPlaces
  deriving DecidableEq

def AmountFault.message : AmountFault → String
  | amount cause => cause.message
  | noPlaces => "Format specifier missing precision"
  | badPlaces written kind =>
    "Invalid format specifier '." ++ written ++ "f' for object of type '" ++ kind ++ "'"
  | tooManyDigits => "Too many decimal digits in format string"
  | tooManyPlaces => "precision too big"

namespace Value

def kindName : Value → String
  | bool _ => "bool"
  | int _ => "int"
  | _ => "float"

/-- The number of places that is asked for an amount. It has to be written in digits only, and to
fit into 64 bits with a sign. -/
def readPlaces (amount places : Value) : Except AmountFault Nat :=
  let written := places.shown
  let digits := written.toList.takeWhile Text.isDigit
  let count := Text.digitsValue digits
  if digits.isEmpty then .error .noPlaces
  else if 0x8000000000000000 ≤ count then .error .tooManyDigits
  else if digits = written.toList then .ok count
  else .error (.badPlaces written amount.kindName)

/-- Whether a value is an amount below `0.01` and above zero. A value that is no number cannot be
compared; a whole number is never as small. -/
def isSmallAmount : Value → Except ValueFault Bool
  | int _ => .ok false
  | value => do return Currency.isSmall (← value.amount)

end Value

/-- An amount with the symbol of a currency, in a number of places that is asked for: one for most
amounts, another for small ones. -/
def Currency.priceText (currency : Currency) (amount usual small : Value) :
    Except AmountFault String := do
  let isSmall ← amount.isSmallAmount.mapError .amount
  let places ← amount.readPlaces (if isSmall then small else usual)
  let x ← amount.amount.mapError .amount
  if 0x7FFFFFFF < places then throw .tooManyPlaces
  return currency.amountText x { usual := places, small := places }

end Quotation
