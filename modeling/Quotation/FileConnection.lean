import Quotation.Schema.Reader
import Quotation.Session

/-!
# Values from uploaded files

A merchant links properties of an uploaded file, such as its page count, to parameters. When a buyer
uploads a file, each linked property is filled in and derived values follow. For models to print, the
weight comes from the volume and the density of the material.
-/

namespace Quotation

/-- Links a property of a file to the parameter that it fills in. -/
structure FileConnection where
  id : String
  property : Value
  parameter : Value
  description : Value := .text ""

namespace FileConnection

def ofFields (fields : List (String × Value)) : FileConnection where
  id := (fieldOr fields "id" (.text "")).shown
  property := fieldOr fields "metadataKey" (.text "")
  parameter := fieldOr fields "parameterName" (.text "")
  description := fieldOr fields "description" (.text "")

def ofValue (value : Value) : Except ReadError FileConnection := do
  return ofFields (← value.asObject)

/-- Fills in the parameter of one connection, as text, if the file has the property. A whole number is
written out however many digits it has. -/
def fill (file : FormValues) (parameters : List Parameter) (passLimit : Nat) (v : FormValues)
    (connection : FileConnection) : Except ValueFault FormValues := do
  match ← file.read connection.property with
  | .null => return v
  | value => Derived.update connection.parameter (.text value.shown) parameters v passLimit

def fillAll (file : FormValues) (connections : List FileConnection) (parameters : List Parameter)
    (v : FormValues) (passLimit : Nat) : Except ValueFault FormValues :=
  connections.foldlM (fill file parameters passLimit) v

end FileConnection

def Session.applyFile (s : Session) (file : FormValues) (connections : List FileConnection) :
    Except ValueFault Session := do
  return { s with
    values := ← FileConnection.fillAll file connections s.parameters s.values s.settings.passLimit }

/-! ## Weights -/

/-- The densities of common materials in grams per cubic centimetre. -/
def materialDensities : List (String × Float) :=
  [("PLA", 1.24), ("ABS", 1.05), ("PETG", 1.27), ("TPU", 1.2), ("PC", 1.2), ("ASA", 1.05),
    ("Nylon", 1.14), ("Wood Fill", 1.28), ("Metal Fill", 4.0), ("Carbon Fiber", 1.3),
    ("Generic", 1.24)]

def density? (material : Value) : Except ValueFault (Option Float) := do
  requireNames [material]
  return (materialDensities.find? fun (name, _) => material.key = name).map (·.2)

def genericDensity : Float := 1.24

/-- A thousandth of a number. A whole number is divided exactly before it is rounded. -/
def thousandth : Value → Except ValueFault Float
  | .int n =>
    match Number.ofQuotient n 1000 with
    | some x => .ok x
    | none => .error .quotientTooLarge
  | value => do return (← value.amount) / 1000

/-- The weight in grams of a volume in cubic millimetres. -/
def weight (volume density : Value) : Except ValueFault Float := do
  return (← thousandth volume) * (← density.amount)

end Quotation
