import Quotation.Schema.Parameter

/-!
# The order of derived parameters

Derived parameters are worked out after the derived parameters that they depend on. The list of them
is swept again and again; each sweep places the parameters that wait for nothing unplaced. Parameters
that wait for each other are never placed, and stand last in schema order. Of parameters with one
key only the first is placed.
-/

namespace Quotation.Derived

def derivedOf (parameters : List Parameter) : List Parameter := parameters.filter (·.isDerived)

def keysOf (parameters : List Parameter) : List Key := parameters.map (·.key)

/-- The dependencies declared under a key; the last parameter with the key decides. -/
def declared (derived : List Parameter) (key : Key) : List Value :=
  match derived.reverse.find? (·.key == key) with
  | some p => p.dependencies
  | none => []

/-- The other derived parameters that the one with a key has to wait for. -/
def waitsFor (derived : List Parameter) (key : Key) : List Key :=
  ((declared derived key).map Value.key).filter fun other =>
    other != key && (keysOf derived).contains other

def place (derived placed : List Parameter) (p : Parameter) : List Parameter :=
  if (keysOf placed).contains p.key then placed
  else if (waitsFor derived p.key).all (keysOf placed).contains then placed ++ [p]
  else placed

def sweep (derived placed : List Parameter) : List Parameter := derived.foldl (place derived) placed

/-- Sweeps until a sweep places nothing. The count bounds the sweeps. -/
def sweeps (derived : List Parameter) : Nat → List Parameter → List Parameter
  | 0, placed => placed
  | count + 1, placed =>
    let next := sweep derived placed
    if next.length = placed.length then placed else sweeps derived count next

/-- The derived parameters that can be put in order. Every sweep but the last places one at least, so
as many sweeps as there are parameters are enough. -/
def ordered (derived : List Parameter) : List Parameter := sweeps derived derived.length []

/-- The derived parameters, each after those that it depends on as far as that is possible. -/
def dependencyOrder (parameters : List Parameter) : List Parameter :=
  let derived := derivedOf parameters
  let placed := ordered derived
  placed ++ derived.filter fun p => !(keysOf placed).contains p.key

def namesOf (derived : List Parameter) : List Value :=
  derived.map (·.name) ++ derived.flatMap (·.dependencies)

/-- The derived parameters in order, unless something in them is no name. -/
def schedule (parameters : List Parameter) : Except ValueFault (List Parameter) := do
  requireNames (namesOf (derivedOf parameters))
  return dependencyOrder parameters

end Quotation.Derived
