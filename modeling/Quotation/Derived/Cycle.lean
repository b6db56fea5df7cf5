import Quotation.Derived.Order

/-!
# Cycles among derived parameters

A depth-first search along dependencies. Where a path comes back to a parameter that it went
through, the part of it from there on is a cycle. Cycles through the same parameters are reported
once. A cycle names its parameters as the dependencies do that it follows.
-/

namespace Quotation.Derived

/-- What a search has found: the keys that it is done with, and the cycles, each with its first
parameter repeated at the end. -/
structure Search where
  finished : List Key := []
  cycles : List (List Value) := []

def sameKeys (xs ys : List Value) : Bool :=
  let ks := xs.map Value.key
  let ls := ys.map Value.key
  ks.all ls.contains && ls.all ks.contains

/-- Adds a cycle unless there is one through the same parameters. -/
def Search.record (s : Search) (cycle : List Value) : Search :=
  if s.cycles.any (sameKeys cycle) then s else { s with cycles := s.cycles ++ [cycle] }

/-- Searches on from a name that was reached along a path. The count bounds the length of paths. It
allows for any path without a repetition: the stack of a machine, which a chain of many hundreds may
exhaust, is left out. -/
def visit (derived : List Parameter) : Nat → List Value → Value → Search → Search
  | 0, _, _, s => s
  | count + 1, path, name, s =>
    let path := path ++ [name]
    let follow (s : Search) (other : Value) : Search :=
      if !(keysOf derived).contains other.key then s
      else if (path.map Value.key).contains other.key then
        s.record (path.dropWhile (·.key != other.key) ++ [other])
      else if s.finished.contains other.key then s
      else visit derived count path other s
    let s := (declared derived name.key).foldl follow s
    { s with finished := name.key :: s.finished }

def findCycles (parameters : List Parameter) : List (List Value) :=
  let derived := derivedOf parameters
  let start (s : Search) (name : Value) : Search :=
    if s.finished.contains name.key then s else visit derived derived.length [] name s
  ((derived.map (·.name)).foldl start {}).cycles

/-- The dependency cycles, unless something that is searched is no name. -/
def cycles (parameters : List Parameter) : Except ValueFault (List (List Value)) := do
  let derived := derivedOf parameters
  requireNames (derived.map (·.name) ++ derived.flatMap fun p => declared derived p.key)
  return findCycles parameters

end Quotation.Derived
