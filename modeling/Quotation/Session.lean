import Quotation.Form.FieldValue
import Quotation.Form.Validation
import Quotation.Price.Quote
import Quotation.Settings

/-!
# A buyer's way through a quote form

A session holds the schema of a form, the values entered so far and the values it started with. Each
step gives a new session; a step that meets a value it cannot read gives an error instead.
-/

namespace Quotation

/-! ## Forms under given settings -/

namespace Settings

def currencyCode (settings : Settings) : String :=
  (Currency.ofCode (.text settings.defaultCurrency)).code

/-- The values of a form that is opened without any. -/
def firstValues : FormValues := FormValues.empty.set quantityName "1"

def openForm (parameters : List Parameter) (v : Option FormValues) :
    Except ValueFault FormValues :=
  Derived.resolve parameters (v.getD firstValues)

/-- Sets one field and works out what follows from it. -/
def update (settings : Settings) (parameters : List Parameter) (v : FormValues)
    (name value : Value) : Except ValueFault FormValues :=
  Derived.update name value parameters v settings.passLimit

/-- Prices a form, in the default currency unless a code is given. -/
def quote (settings : Settings) (parameters : List Parameter) (v : FormValues)
    (code : Value := .null) : Price.Quote :=
  Price.quote parameters v (code.orElse (.text settings.currencyCode))

end Settings

/-! ## Sessions -/

structure Session where
  settings : Settings := {}
  parameters : List Parameter
  values : FormValues
  currency : Value
  initialValues : FormValues

namespace Session

def start (settings : Settings) (parameters : List Parameter) (v : Option FormValues := none)
    (currency : Value := .null) : Except ValueFault Session := do
  let values ← Settings.openForm parameters v
  return { settings, parameters, values, initialValues := values,
           currency := currency.orElse (.text settings.currencyCode) }

/-- Records the value of a field: clears what it hides and works out what follows from it. -/
def setValue (s : Session) (name value : Value) : Except ValueFault Session := do
  let cleared ← Form.clearHiddenChildren name s.parameters (← s.values.write name value)
  return { s with values := ← s.settings.update s.parameters cleared name value }

def selectSubOption (s : Session) (name value : Value) : Session :=
  { s with values := s.values.set (subOptionName name) value }

def quote (s : Session) : Price.Quote := s.settings.quote s.parameters s.values s.currency

def validate (s : Session) : Except ValueFault (List String) := Form.validate s.parameters s.values

def isValid (s : Session) : Except ValueFault Bool := do return (← s.validate).isEmpty

def visibleParameters (s : Session) : Except ValueFault (List Parameter) :=
  Form.visibleParameters s.parameters s.values

def fieldValues (s : Session) : Except ValueFault (List (Entry Form.FieldValue)) :=
  Form.fieldValues s.parameters s.values

/-- Whether the form holds other answers than at the start. -/
def hasChanges (s : Session) : Bool := !s.values.sameAs s.initialValues

def reset (s : Session) : Session := { s with values := s.initialValues }

end Session

end Quotation
