import Quotation.Derived.Order
import Quotation.Formula.Evaluation
import Quotation.FormValues

/-!
# Working out derived values

A derived parameter holds the plain text of what its formula comes to, with the fields that it
depends on read as numbers. A full pass works out all of them in dependency order. After a change of
one field only those are worked out again that depend on the field or on anything that the form
holds, in as many passes as it takes, up to a limit.
-/

namespace Quotation.Derived

/-- The number of the field with a name, bound to the name. A formula can only use a name that is
text. -/
def binding (v : FormValues) (name : Value) : Except ValueFault (Option (String × Value)) := do
  let x ← (← v.read name).numberOrZero
  match name with
  | .text s => return some (s, .float x)
  | _ => return none

def bindings (p : Parameter) (v : FormValues) : Except ValueFault (List (String × Value)) := do
  return (← p.dependencies.mapM (binding v)).filterMap id

/-- What a derived parameter comes to. A formula with an error counts as zero. -/
def evaluateDerived (p : Parameter) (v : FormValues) : Except ValueFault String := do
  match Formula.evaluate ((p.givenFormula.getD (.text "")).shown) (← bindings p v) with
  | .ok x => return Number.plainText x
  | .error (.formula _) => return "0"
  | .error (.value cause) => throw cause

/-- Works out one parameter and stores the result. Without a formula nothing is stored. -/
def resolveOne (v : FormValues) (p : Parameter) : Except ValueFault FormValues := do
  if p.givenFormula.isNone then return v
  return v.set p.name (.text (← evaluateDerived p v))

def resolve (parameters : List Parameter) (v : FormValues) : Except ValueFault FormValues := do
  (← schedule parameters).foldlM resolveOne v

/-! ## After a change -/

def defaultPassLimit : Nat := 10

/-- How many passes are made while fewer have been made than a limit. No limit means the default. -/
def passesBelow : Value → Except ValueFault Nat
  | .null => .ok defaultPassLimit
  | .bool b => .ok (if b then 1 else 0)
  | .int n => .ok n.toNat
  | .float x => .ok (if x > 0 then x.ceil.toUInt64.toNat else 0)
  | .nan _ => .ok 0
  | .text _ | .list _ | .object _ => .error .notNumeric

def dependents (key : Key) (order : List Parameter) : List Key :=
  keysOf (order.filter (·.dependsOn.contains key))

/-- Whether a parameter is worked out again: it depends on the changed field or on a key that the
form has. -/
def isAffected (direct : List Key) (v : FormValues) (p : Parameter) : Bool :=
  direct.contains p.key || p.dependsOn.any v.contains

def holds (v : FormValues) (key : Key) (text : String) : Bool :=
  match v.get? key with
  | some (.text s) => s == text
  | _ => false

def refreshOne (direct : List Key) (state : FormValues × Bool) (p : Parameter) :
    Except ValueFault (FormValues × Bool) := do
  let (v, changed) := state
  if !isAffected direct v p then return (v, changed)
  let result ← evaluateDerived p v
  if holds v p.key result then return (v, changed)
  return (v.set p.name (.text result), true)

def refresh (direct : List Key) (order : List Parameter) (v : FormValues) :
    Except ValueFault (FormValues × Bool) :=
  order.foldlM (refreshOne direct) (v, false)

/-- Passes until one changes nothing or the limit is reached. -/
def refreshAll (direct : List Key) (order : List Parameter) :
    Nat → FormValues → Except ValueFault FormValues
  | 0, v => .ok v
  | limit + 1, v => do
    let (w, changed) ← refresh direct order v
    if changed then refreshAll direct order limit w else return w

/-- Sets one field and works out what follows from it. -/
def update (name value : Value) (parameters : List Parameter) (v : FormValues) (passLimit : Nat) :
    Except ValueFault FormValues := do
  let v ← v.write name value
  let order := (← schedule parameters).filter (·.givenFormula.isSome)
  refreshAll (dependents name.key order) order passLimit v

end Quotation.Derived
