import Quotation.Derived.Resolution
import Quotation.Path
import Quotation.Text.Uppercase

/-!
# Settings

What can be set from outside: the currency of a quote, how many passes are made after a change, how
much is logged and where the sample schemas are.
-/

namespace Quotation

structure Settings where
  defaultCurrency : String := "USD"
  passLimit : Nat := Derived.defaultPassLimit
  logLevel : String := "INFO"
  /-- The folder of the sample schemas; the bundled ones if there is none. -/
  samplesFolder : Option String := none

namespace Settings

def digitLimit : Nat := 4300

/-- The pass limit that a text asks for: at least one, and the default if it is no whole number or is
too long to be read. -/
def readPassLimit (s : String) : Nat :=
  match Number.readInt? s with
  | some n =>
    if s.toList.countP Text.isDigit ≤ digitLimit then max 1 n.toNat else Derived.defaultPassLimit
  | none => Derived.defaultPassLimit

def ofEnvironment (get? : String → Option String) : Settings where
  defaultCurrency := Text.uppercase ((get? "QUOTE_TOOL_CURRENCY").getD "USD")
  passLimit := ((get? "QUOTE_TOOL_MAX_ITERATIONS").map readPassLimit).getD Derived.defaultPassLimit
  logLevel := Text.uppercase ((get? "QUOTE_TOOL_LOG_LEVEL").getD "INFO")
  samplesFolder := ((get? "QUOTE_TOOL_SAMPLES_DIR").filter (· != "")).map Path.normalize

end Settings

end Quotation
